/-!
# Rows by key

Tables are lists of rows. A row is put in under a key that is read off it, so that no two rows of a
table have the same key as long as rows are only put in this way.
-/

set_option autoImplicit false

namespace BuildServer

/-- Puts a row in the place of the first one with the same key, or at the end. -/
def putRow {α κ : Type} [DecidableEq κ] (key : α → κ) (row : α) : List α → List α
  | [] => [row]
  | other :: rest => if key other = key row then row :: rest else other :: putRow key row rest

end BuildServer
