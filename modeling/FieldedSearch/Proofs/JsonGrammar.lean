import FieldedSearch.Proofs.JsonLexemes

namespace FieldedSearch.Json

variable {s r t gap rest front : Text} {c : Char} {tree : Tree} {items : List Tree}
  {members : List (Option Text × Tree)}

def Spaces (gap : Text) : Prop := ∀ c ∈ gap, isSpace c = true

-- A value, or all that stands between two brackets or two braces.
inductive Phrase where
  | value (tree : Tree)
  | items (items : List Tree)
  | members (members : List (Option Text × Tree))

inductive KeyText : Text → Option Text → Prop where
  | colon {before inside after : Text} {key : Option Text} : Spaces before → StringText inside key → Spaces after →
      KeyText (before ++ '"' :: (inside ++ '"' :: (after ++ [':']))) key

inductive Spells : Text → Phrase → Prop where
  | spaced {gap s : Text} {tree : Tree} : Spaces gap → Spells s (.value tree) → Spells (gap ++ s) (.value tree)
  | word {word : Text} {tree : Tree} : (word,tree) ∈ words → Spells word (.value tree)
  | number {s : Text} {literal : NumberLiteral} : NumberText s literal → Spells s (.value (.number literal))
  | string {inside : Text} {text : Option Text} : StringText inside text →
      Spells ('"' :: (inside ++ ['"'])) (.value (.string text))
  | noItems {gap : Text} : Spaces gap → Spells ('[' :: (gap ++ [']'])) (.value (.array []))
  | array {s : Text} {items : List Tree} : Spells s (.items items) → Spells ('[' :: (s ++ [']'])) (.value (.array items))
  | noMembers {gap : Text} : Spaces gap → Spells ('\x7b' :: (gap ++ ['\x7d'])) (.value (.object []))
  | object {s : Text} {members : List (Option Text × Tree)} : Spells s (.members members) →
      Spells ('\x7b' :: (s ++ ['\x7d'])) (.value (.object members))
  | lastItem {s gap : Text} {tree : Tree} : Spells s (.value tree) → Spaces gap → Spells (s ++ gap) (.items [tree])
  | nextItem {s gap t : Text} {tree : Tree} {items : List Tree} : Spells s (.value tree) → Spaces gap →
      Spells t (.items items) → Spells (s ++ (gap ++ ',' :: t)) (.items (tree :: items))
  | lastMember {name s gap : Text} {key : Option Text} {tree : Tree} : KeyText name key → Spells s (.value tree) →
      Spaces gap → Spells (name ++ (s ++ gap)) (.members [(key,tree)])
  | nextMember {name s gap t : Text} {key : Option Text} {tree : Tree} {members : List (Option Text × Tree)} :
      KeyText name key → Spells s (.value tree) → Spaces gap → Spells t (.members members) →
      Spells (name ++ (s ++ (gap ++ ',' :: t))) (.members ((key,tree) :: members))

inductive Denotes : Text → Tree → Prop where
  | value {s gap : Text} {tree : Tree} : Spells s (.value tree) → Spaces gap → Denotes (s ++ gap) tree

theorem spaces_nil : Spaces [] := List.forall_mem_nil _

theorem dropSpace_append (space : Spaces gap) (s : Text) : dropSpace (gap ++ s) = dropSpace s :=
  List.dropWhile_append_of_pos space

theorem dropSpace_solid (solid : isSpace c = false) (r : Text) : dropSpace (c :: r) = c :: r := by
  rw [dropSpace,List.dropWhile_cons,solid]
  rfl

theorem dropSpace_begins (space : Spaces gap) (solid : isSpace c = false) (r : Text) :
    dropSpace (gap ++ c :: r) = c :: r := by
  rw [dropSpace_append space,dropSpace_solid solid]

theorem dropSpace_cut (s : Text) : ∃ gap, Spaces gap ∧ s = gap ++ dropSpace s :=
  ⟨s.takeWhile isSpace,List.all_eq_true.mp List.all_takeWhile,List.takeWhile_append_dropWhile.symm⟩

theorem isSpace_apart (space : isSpace c = true) : c.isDigit = false ∧ c ≠ '.' ∧ c ≠ 'e' ∧ c ≠ 'E' := by
  simp only [isSpace,Bool.or_eq_true,decide_eq_true_eq] at space
  rcases space with ((rfl | rfl) | rfl) | rfl <;> decide

theorem endsNumber_spaces (space : Spaces gap) (ends : EndsNumber rest) : EndsNumber (gap ++ rest) := by
  cases gap with
  | nil => exact ends
  | cons c gap => exact endsNumber_cons (isSpace_apart (space c List.mem_cons_self)) _

theorem takeTree_end (nothing : dropSpace s = []) : takeTree s = none := by
  rw [takeTree]
  split
  · rfl
  · next begins => cases nothing.symm.trans begins

theorem takeTree_begins (begins : dropSpace s = c :: r) : takeTree s =
    if c = '"' then (takeString r).map fun (text,rest) => (.string text,rest)
    else if c = '[' then
      match dropSpace r with
      | ']' :: rest => some (.array [],rest)
      | _ => (takeItems r).map fun (items,rest) => (.array items,rest)
    else if c = '\x7b' then
      match dropSpace r with
      | '\x7d' :: rest => some (.object [],rest)
      | _ => (takeMembers r).map fun (members,rest) => (.object members,rest)
    else takeScalar (c :: r) := by
  rw [takeTree]
  split
  · next none => cases none.symm.trans begins
  · next found => cases found.symm.trans begins; rfl

theorem takeTree_space (space : Spaces gap) (s : Text) : takeTree (gap ++ s) = takeTree s := by
  have same := dropSpace_append space s
  cases begins : dropSpace s with
  | nil => rw [takeTree_end begins,takeTree_end (same.trans begins)]
  | cons c r => rw [takeTree_begins begins,takeTree_begins (same.trans begins)]

theorem takeTree_string (r : Text) :
    takeTree ('"' :: r) = (takeString r).map fun (text,rest) => (.string text,rest) := by
  rw [takeTree_begins (dropSpace_solid (by decide) r),if_pos rfl]

theorem takeTree_noItems (closed : dropSpace r = ']' :: rest) : takeTree ('[' :: r) = some (.array [],rest) := by
  rw [takeTree_begins (dropSpace_solid (by decide) r),if_neg (by decide),if_pos rfl,closed]
  rfl

theorem takeTree_array (filled : ∀ t, dropSpace r ≠ ']' :: t) :
    takeTree ('[' :: r) = (takeItems r).map fun (items,rest) => (.array items,rest) := by
  rw [takeTree_begins (dropSpace_solid (by decide) r),if_neg (by decide),if_pos rfl]
  split
  · next closed => exact absurd closed (filled _)
  · rfl

theorem takeTree_noMembers (closed : dropSpace r = '\x7d' :: rest) :
    takeTree ('\x7b' :: r) = some (.object [],rest) := by
  rw [takeTree_begins (dropSpace_solid (by decide) r),if_neg (by decide),if_neg (by decide),if_pos rfl,closed]
  rfl

theorem takeTree_object (filled : ∀ t, dropSpace r ≠ '\x7d' :: t) :
    takeTree ('\x7b' :: r) = (takeMembers r).map fun (members,rest) => (.object members,rest) := by
  rw [takeTree_begins (dropSpace_solid (by decide) r),if_neg (by decide),if_neg (by decide),if_pos rfl]
  split
  · next closed => exact absurd closed (filled _)
  · rfl

theorem takeTree_scalar (solid : isSpace c = false) (unquoted : c ≠ '"') (bracket : c ≠ '[') (brace : c ≠ '\x7b')
    (r : Text) : takeTree (c :: r) = takeScalar (c :: r) := by
  rw [takeTree_begins (dropSpace_solid solid r),if_neg unquoted,if_neg bracket,if_neg brace]

theorem takeItems_last {behind : Text} (read : takeTree s = some (tree,behind))
    (closed : dropSpace behind = ']' :: rest) : takeItems s = some ([tree],rest) := by
  simp [takeItems,read,closed]

theorem takeItems_next {behind more : Text} (read : takeTree s = some (tree,behind))
    (next : dropSpace behind = ',' :: more) (shorter : more.length < s.length) :
    takeItems s = (takeItems more).map fun (items,rest) => (tree :: items,rest) := by
  rw [takeItems,read]
  simp [next,shorter]

theorem takeMembers_begins {key : Option Text} {colon value : Text} (begins : dropSpace s = '"' :: r)
    (named : takeString r = some (key,colon)) (parted : dropSpace colon = ':' :: value)
    (read : takeTree value = some (tree,rest)) :
    takeMembers s =
      match dropSpace rest with
      | ',' :: more =>
          if more.length < s.length then
            (takeMembers more).map fun (members,rest) => ((key,tree) :: members,rest)
          else none
      | '\x7d' :: rest => some ([(key,tree)],rest)
      | _ => none := by
  rw [takeMembers]
  split
  · next t same =>
      cases same.symm.trans begins
      split
      · next missing => cases missing.symm.trans named
      · next found =>
          cases found.symm.trans named
          split
          · next found =>
              cases found.symm.trans parted
              rewrite [read]
              rfl
          · next other => exact absurd parted (other _)
  · next other => exact absurd begins (other _)

theorem takeMembers_last {key : Option Text} {colon value behind : Text} (begins : dropSpace s = '"' :: r)
    (named : takeString r = some (key,colon)) (parted : dropSpace colon = ':' :: value)
    (read : takeTree value = some (tree,behind)) (closed : dropSpace behind = '\x7d' :: rest) :
    takeMembers s = some ([(key,tree)],rest) := by
  rw [takeMembers_begins begins named parted read,closed]
  rfl

theorem takeMembers_next {key : Option Text} {colon value behind more : Text} (begins : dropSpace s = '"' :: r)
    (named : takeString r = some (key,colon)) (parted : dropSpace colon = ':' :: value)
    (read : takeTree value = some (tree,behind)) (next : dropSpace behind = ',' :: more)
    (shorter : more.length < s.length) :
    takeMembers s = (takeMembers more).map fun (members,rest) => ((key,tree) :: members,rest) := by
  rw [takeMembers_begins begins named parted read,next]
  exact if_pos shorter

theorem takeTree_word {word : Text} (known : (word,tree) ∈ words) (rest : Text) :
    takeTree (word ++ rest) = some (tree,rest) := by
  simp only [words,List.mem_cons,Prod.mk.injEq,List.not_mem_nil,or_false] at known
  rcases known with ⟨rfl,rfl⟩ | ⟨rfl,rfl⟩ | ⟨rfl,rfl⟩ <;>
    exact takeTree_scalar (by decide) (by decide) (by decide) (by decide) _

theorem NumberText.begins {literal : NumberLiteral} (spelled : NumberText s literal) (rest : Text) :
    ∃ c r, s ++ rest = c :: r ∧ (c = '-' ∨ c.isDigit = true) := by
  cases spelled with
  | @parts sign whole point fraction mark negative exponent signed leading =>
      simp only [minusSigns,List.mem_cons,Prod.mk.injEq,List.not_mem_nil,or_false] at signed
      rcases signed with ⟨rfl,_⟩ | ⟨rfl,_⟩
      · obtain ⟨c,r,begins,digit⟩ := leading.begins (point ++ mark ++ rest)
        exact ⟨c,r,by simpa using begins,.inr digit⟩
      · exact ⟨'-',_,rfl,.inl rfl⟩

theorem not_isDigit (front : c = '-' ∨ c.isDigit = true) {d : Char} (other : d ≠ '-' ∧ d.isDigit = false) : c ≠ d := by
  rintro rfl
  rcases front with dash | digit
  · exact other.1 dash
  · rw [other.2] at digit
    cases digit

theorem isSpace_number (front : c = '-' ∨ c.isDigit = true) : isSpace c = false := by
  have other : ∀ d, d ≠ '-' ∧ d.isDigit = false → c ≠ d := fun d => not_isDigit front
  simp [isSpace,other ' ' (by decide),other '\t' (by decide),other '\n' (by decide),other '\r' (by decide)]

theorem takeScalar_number (front : c = '-' ∨ c.isDigit = true) (r : Text) :
    takeScalar (c :: r) = (takeNumber (c :: r)).map fun (literal,rest) => (.number literal,rest) := by
  have other : ∀ d : Char, d ≠ '-' ∧ d.isDigit = false → (d == c) = false :=
    fun d letter => beq_eq_false_iff_ne.mpr (not_isDigit front letter).symm
  have unworded : ∀ entry ∈ words, entry.1.isPrefixOf (c :: r) = false := by
    simp [words,List.isPrefixOf,other 'n',other 't',other 'f']
  rw [takeScalar]
  split
  · next word tree found =>
      have begun := List.find?_some found
      exact absurd begun (Bool.eq_false_iff.mp (unworded (word,tree) (List.mem_of_find?_eq_some found)))
  · rfl

theorem takeTree_number {literal : NumberLiteral} (spelled : NumberText s literal) (ends : EndsNumber rest) :
    takeTree (s ++ rest) = some (.number literal,rest) := by
  have read := spelled.takeNumber ends
  obtain ⟨c,r,begins,front⟩ := spelled.begins rest
  rw [begins] at read ⊢
  rw [takeTree_scalar (isSpace_number front) (not_isDigit front (by decide)) (not_isDigit front (by decide))
    (not_isDigit front (by decide)),takeScalar_number front,read]
  rfl

def Reads (s : Text) : Phrase → Prop
  | .value tree => ∀ rest, EndsNumber rest → takeTree (s ++ rest) = some (tree,rest)
  | .items items => ∀ rest, takeItems (s ++ ']' :: rest) = some (items,rest)
  | .members members => ∀ rest, takeMembers (s ++ '\x7d' :: rest) = some (members,rest)

-- No value begins with a bracket that closes.
theorem takeItems_filled (read : takeItems s = some (items,rest)) (t : Text) : dropSpace s ≠ ']' :: t := by
  intro closed
  rw [takeItems,takeTree_begins closed] at read
  cases read

theorem takeMembers_filled (read : takeMembers s = some (members,rest)) (t : Text) : dropSpace s ≠ '\x7d' :: t := by
  intro closed
  rw [takeMembers] at read
  split at read
  · next begins => cases begins.symm.trans closed
  · cases read

theorem KeyText.cut {name : Text} {key : Option Text} (named : KeyText name key) (value : Text) :
    ∃ r colon, dropSpace (name ++ value) = '"' :: r ∧ takeString r = some (key,colon) ∧
      dropSpace colon = ':' :: value := by
  cases named with
  | @colon before inside after key front spelled back =>
      refine ⟨inside ++ '"' :: (after ++ ':' :: value),after ++ ':' :: value,?_,spelled.takeString _,
        dropSpace_begins back (by decide) value⟩
      simpa using dropSpace_begins front (by decide) (inside ++ '"' :: (after ++ ':' :: value))

theorem Spells.reads {phrase : Phrase} (spelled : Spells s phrase) : Reads s phrase := by
  induction spelled with
  | spaced space _ ih =>
      intro rest ends
      rw [List.append_assoc,takeTree_space space]
      exact ih rest ends
  | word known => exact fun rest _ => takeTree_word known rest
  | number spelled => exact fun rest ends => takeTree_number spelled ends
  | string spelled =>
      intro rest _
      rw [List.cons_append,List.append_assoc,takeTree_string,List.singleton_append,spelled.takeString]
      rfl
  | noItems space =>
      intro rest _
      rw [List.cons_append,List.append_assoc]
      exact takeTree_noItems (dropSpace_begins space (by decide) rest)
  | array _ ih =>
      intro rest _
      have inside := ih rest
      rw [List.cons_append,List.append_assoc,List.singleton_append,takeTree_array (takeItems_filled inside),inside]
      rfl
  | noMembers space =>
      intro rest _
      rw [List.cons_append,List.append_assoc]
      exact takeTree_noMembers (dropSpace_begins space (by decide) rest)
  | object _ ih =>
      intro rest _
      have inside := ih rest
      rw [List.cons_append,List.append_assoc,List.singleton_append,takeTree_object (takeMembers_filled inside),inside]
      rfl
  | lastItem _ space ih =>
      intro rest
      rw [List.append_assoc]
      exact takeItems_last (ih _ (endsNumber_spaces space (endsNumber_cons (by decide) rest)))
        (dropSpace_begins space (by decide) rest)
  | @nextItem s gap t tree items _ space _ ih behind =>
      intro rest
      have read := ih (gap ++ ',' :: (t ++ ']' :: rest)) (endsNumber_spaces space (endsNumber_cons (by decide) _))
      simp only [List.append_assoc,List.cons_append]
      rw [takeItems_next read (dropSpace_begins space (by decide) _) (by simp; omega),behind]
      rfl
  | @lastMember name s gap key tree named _ space ih =>
      intro rest
      have read := ih (gap ++ '\x7d' :: rest) (endsNumber_spaces space (endsNumber_cons (by decide) rest))
      obtain ⟨r,colon,begins,taken,parted⟩ := named.cut (s ++ (gap ++ '\x7d' :: rest))
      simp only [List.append_assoc]
      exact takeMembers_last begins taken parted read (dropSpace_begins space (by decide) rest)
  | @nextMember name s gap t key tree members named _ space _ ih behind =>
      intro rest
      have read := ih (gap ++ ',' :: (t ++ '\x7d' :: rest)) (endsNumber_spaces space (endsNumber_cons (by decide) _))
      obtain ⟨r,colon,begins,taken,parted⟩ := named.cut (s ++ (gap ++ ',' :: (t ++ '\x7d' :: rest)))
      simp only [List.append_assoc,List.cons_append]
      rw [takeMembers_next begins taken parted read (dropSpace_begins space (by decide) _) (by simp; omega),behind]
      rfl

-- What is read was spelled. Every part is shorter than the text that it is cut from.

structure Sound (s : Text) : Prop where
  value : ∀ tree rest, takeTree s = some (tree,rest) → ∃ front, s = front ++ rest ∧ Spells front (.value tree)
  items : ∀ items rest, takeItems s = some (items,rest) → ∃ front, s = front ++ ']' :: rest ∧ Spells front (.items items)
  members : ∀ members rest, takeMembers s = some (members,rest) →
    ∃ front, s = front ++ '\x7d' :: rest ∧ Spells front (.members members)

theorem takeScalar_sound (read : takeScalar s = some (tree,rest)) : ∃ front, s = front ++ rest ∧ Spells front (.value tree) := by
  rw [takeScalar] at read
  split at read
  · next word own found =>
      cases read
      have front := List.find?_some found
      obtain ⟨behind,rfl⟩ := List.isPrefixOf_iff_prefix.mp front
      exact ⟨word,by rw [List.drop_left],.word (List.mem_of_find?_eq_some found)⟩
  · obtain ⟨⟨literal,left⟩,number,same⟩ := Option.map_eq_some_iff.mp read
    cases same
    obtain ⟨front,cut,spelled⟩ := takeNumber_sound number
    exact ⟨front,cut,.number spelled⟩

theorem takeTree_sound (below : ∀ r, r.length < s.length → Sound r) (read : takeTree s = some (tree,rest)) :
    ∃ front, s = front ++ rest ∧ Spells front (.value tree) := by
  obtain ⟨gap,space,cut⟩ := dropSpace_cut s
  have behind : ∀ front, dropSpace s = front ++ rest → Spells front (.value tree) →
      ∃ front, s = front ++ rest ∧ Spells front (.value tree) := fun front same spelled =>
    ⟨gap ++ front,by rw [List.append_assoc,← same]; exact cut,.spaced space spelled⟩
  cases begins : dropSpace s with
  | nil => rw [takeTree_end begins] at read; cases read
  | cons c r =>
      have shorter := length_of_dropSpace s r c begins
      rw [begins] at behind
      rw [takeTree_begins begins] at read
      split at read
      · next quote =>
          obtain ⟨⟨text,left⟩,string,same⟩ := Option.map_eq_some_iff.mp read
          cases same
          obtain ⟨inside,rfl,spelled⟩ := takeString_sound string
          subst quote
          exact behind _ (by simp) (.string spelled)
      · split at read
        · next bracket =>
            subst bracket
            obtain ⟨gap,space,own⟩ := dropSpace_cut r
            split at read
            · next closed =>
                cases read
                exact behind ('[' :: (gap ++ [']'])) (by rw [own,closed]; simp) (.noItems space)
            · obtain ⟨⟨items,left⟩,inside,same⟩ := Option.map_eq_some_iff.mp read
              cases same
              obtain ⟨front,rfl,spelled⟩ := (below r shorter).items _ _ inside
              exact behind ('[' :: (front ++ [']'])) (by simp) (.array spelled)
        · split at read
          · next brace =>
              subst brace
              obtain ⟨gap,space,own⟩ := dropSpace_cut r
              split at read
              · next closed =>
                  cases read
                  exact behind ('\x7b' :: (gap ++ ['\x7d'])) (by rw [own,closed]; simp) (.noMembers space)
              · obtain ⟨⟨members,left⟩,inside,same⟩ := Option.map_eq_some_iff.mp read
                cases same
                obtain ⟨front,rfl,spelled⟩ := (below r shorter).members _ _ inside
                exact behind ('\x7b' :: (front ++ ['\x7d'])) (by simp) (.object spelled)
          · obtain ⟨front,same,spelled⟩ := takeScalar_sound read
            exact behind front same spelled

theorem takeItems_sound (below : ∀ r, r.length < s.length → Sound r) (read : takeItems s = some (items,rest)) :
    ∃ front, s = front ++ ']' :: rest ∧ Spells front (.items items) := by
  rw [takeItems] at read
  split at read
  · cases read
  · next item behind first =>
      obtain ⟨front,rfl,spelled⟩ := takeTree_sound below first
      obtain ⟨gap,space,cut⟩ := dropSpace_cut behind
      split at read
      · next more next =>
          split at read
          · next shorter =>
              obtain ⟨⟨items,left⟩,later,same⟩ := Option.map_eq_some_iff.mp read
              cases same
              obtain ⟨t,rfl,others⟩ := (below more shorter).items _ _ later
              exact ⟨front ++ (gap ++ ',' :: t),by rw [cut,next]; simp,.nextItem spelled space others⟩
          · cases read
      · next closed =>
          cases read
          exact ⟨front ++ gap,by rw [cut,closed]; simp,.lastItem spelled space⟩
      · cases read

theorem keyText_sound {key : Option Text} {colon value : Text} (begins : dropSpace s = '"' :: r)
    (named : takeString r = some (key,colon)) (parted : dropSpace colon = ':' :: value) :
    ∃ name, s = name ++ value ∧ KeyText name key ∧ value.length < s.length := by
  obtain ⟨before,front,own⟩ := dropSpace_cut s
  obtain ⟨inside,quoted,spelling⟩ := takeString_sound named
  obtain ⟨after,back,apart⟩ := dropSpace_cut colon
  have whole : s = before ++ '"' :: (inside ++ '"' :: (after ++ [':'])) ++ value := by
    rw [own,begins,quoted,apart,parted]
    simp
  refine ⟨_,whole,.colon front spelling back,?_⟩
  rw [whole]
  simp
  omega

theorem takeMembers_sound (below : ∀ r, r.length < s.length → Sound r) (read : takeMembers s = some (members,rest)) :
    ∃ front, s = front ++ '\x7d' :: rest ∧ Spells front (.members members) := by
  rw [takeMembers] at read
  split at read
  · next r begins =>
      split at read
      · cases read
      · next key colon named =>
          split at read
          · next value parted =>
              obtain ⟨name,whole,spelling,shorter⟩ := keyText_sound begins named parted
              split at read
              · cases read
              · next tree behind first =>
                  obtain ⟨body,cut,spelled⟩ := (below value shorter).value _ _ first
                  obtain ⟨gap,space,left⟩ := dropSpace_cut behind
                  split at read
                  · next more next =>
                      split at read
                      · next shorter =>
                          obtain ⟨⟨members,rest⟩,later,same⟩ := Option.map_eq_some_iff.mp read
                          cases same
                          obtain ⟨t,others,spellings⟩ := (below more shorter).members _ _ later
                          refine ⟨_,?_,.nextMember spelling spelled space spellings⟩
                          rw [whole,cut,left,next,others]
                          simp
                      · cases read
                  · next closed =>
                      cases read
                      refine ⟨_,?_,.lastMember spelling spelled space⟩
                      rw [whole,cut,left,closed]
                      simp
                  · cases read
          · cases read
  · cases read

theorem sound (s : Text) : Sound s := by
  induction length : s.length using Nat.strongRecOn generalizing s with
  | ind n ih =>
      have below : ∀ r, r.length < s.length → Sound r := fun r shorter => ih r.length (length ▸ shorter) r rfl
      exact ⟨fun _ _ => takeTree_sound below,fun _ _ => takeItems_sound below,fun _ _ => takeMembers_sound below⟩

theorem read?_exact : read? s = some tree ↔ Denotes s tree := by
  rw [read?]
  constructor
  · intro read
    split at read
    · next found rest front =>
        split at read
        · next space =>
            cases read
            obtain ⟨own,rfl,spelled⟩ := (sound s).value _ _ front
            obtain ⟨gap,spaces,cut⟩ := dropSpace_cut rest
            rw [List.isEmpty_iff.mp space,List.append_nil] at cut
            exact .value spelled (cut ▸ spaces)
        · cases read
    · cases read
  · rintro ⟨spelled,space⟩
    have read := spelled.reads _ (endsNumber_spaces space endsNumber_nil)
    have nothing := dropSpace_append space []
    rw [List.append_nil] at read nothing
    rw [read]
    simp only [nothing]
    rfl

end FieldedSearch.Json
