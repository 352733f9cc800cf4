/-!
# Sizes in bytes

How many bytes a text takes in UTF-8, and the part of a text that lies before a byte offset.
-/
namespace TagTemplate.Text

/-- The number of bytes of a text in UTF-8. -/
def size : List Char → Nat
  | [] => 0
  | c :: text => c.utf8Size + size text

@[simp] theorem size_nil : size [] = 0 := rfl

@[simp] theorem size_cons (c : Char) (text : List Char) :
    size (c :: text) = c.utf8Size + size text := rfl

@[simp] theorem size_append (a b : List Char) : size (a ++ b) = size a + size b := by
  induction a with
  | nil => simp
  | cons c a ih => simp [ih, Nat.add_assoc]

/-- The longest part from the start that takes no more than `bytes` bytes. -/
def takeBytes (bytes : Nat) : List Char → List Char
  | [] => []
  | c :: text => if c.utf8Size ≤ bytes then c :: takeBytes (bytes - c.utf8Size) text else []

@[simp] theorem takeBytes_size_append (a b : List Char) : takeBytes (size a) (a ++ b) = a := by
  induction a with
  | nil =>
    cases b with
    | nil => rfl
    | cons c b => simp [takeBytes, Nat.not_le_of_gt c.utf8Size_pos]
  | cons c a ih => simp [takeBytes, ih]

end TagTemplate.Text
