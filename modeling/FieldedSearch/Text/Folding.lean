import FieldedSearch.Text.CaseTables

namespace FieldedSearch

def foldChar (c : Char) : Char := mapChar CaseTables.folded c

end FieldedSearch
