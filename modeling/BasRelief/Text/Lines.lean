/-!
# Lines

A text cut at its line feeds. A carriage return before a line feed belongs to the line end; text
after the last line feed is a line of its own, unless there is none. The same cut serves texts of
characters and of octets.
-/

namespace BasRelief.Text

/-- Puts one symbol in front of the pieces that follow it; a line feed closes an empty piece. -/
def addSymbol {α : Type} [DecidableEq α] (feed c : α) :
    List (List α × Bool) → List (List α × Bool)
  | [] => if c = feed then [([], true)] else [([c], false)]
  | (piece, closed) :: rest =>
    if c = feed then ([], true) :: (piece, closed) :: rest else (c :: piece, closed) :: rest

/-- The text between line feeds; each piece says whether a line feed closes it. -/
def pieces {α : Type} [DecidableEq α] (feed : α) (cs : List α) : List (List α × Bool) :=
  cs.foldr (addSymbol feed) []

/-- A closed piece loses one carriage return at its end. -/
def withoutReturn {α : Type} [DecidableEq α] (ret : α) : List α × Bool → List α
  | (piece, closed) => if closed && piece.getLast? = some ret then piece.dropLast else piece

def lines (cs : List Char) : List (List Char) := (pieces '\n' cs).map (withoutReturn '\r')

def octetLines (bs : List UInt8) : List (List UInt8) := (pieces 10 bs).map (withoutReturn 13)

/-! ### Laws -/

@[simp] theorem lines_nil : lines [] = [] := rfl

theorem pieces_cons {α : Type} [DecidableEq α] (feed c : α) (cs : List α) :
    pieces feed (c :: cs) = addSymbol feed c (pieces feed cs) := rfl

end BasRelief.Text
