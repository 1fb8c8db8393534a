/-!
# Texts in parts

Paths, addresses and lists are texts whose parts stand between separators.

* `split` gives the parts, of which there is always one, and `join` puts parts together.
* `cut?` gives what stands before and behind the first separator.
-/

namespace Provisioner.Text

/-- The texts between the characters that `isBreak` accepts; there is always one. -/
def split (isBreak : Char → Bool) : List Char → List (List Char)
  | [] => [[]]
  | c :: rest =>
    if isBreak c then [] :: split isBreak rest
    else
      match split isBreak rest with
      | [] => [[c]]
      | part :: more => (c :: part) :: more

/-- The texts with a separator between them. -/
def join (separator : Char) : List (List Char) → List Char
  | [] => []
  | [part] => part
  | part :: next :: rest => part ++ separator :: join separator (next :: rest)

/-- The texts before and behind the first `mark`, if there is one. -/
def cut? (mark : Char) : List Char → Option (List Char × List Char)
  | [] => none
  | c :: rest =>
    if c = mark then some ([], rest) else (cut? mark rest).map fun (before, after) =>
      (c :: before, after)

theorem split_ne_nil (isBreak : Char → Bool) (cs : List Char) : split isBreak cs ≠ [] := by
  cases cs with
  | nil => simp [split]
  | cons c rest =>
    rw [split]
    split
    · simp
    · split <;> simp

end Provisioner.Text
