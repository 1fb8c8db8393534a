/-!
# Name templates

Names and override values are templates that are filled in from named variables.

* `${NAME}` and `$NAME` stand for the value of a variable.
* `${NAME:-fallback}` stands for the value, or for the fallback if the variable is
  unset or empty.
* `$$` stands for one `$`.

Any other `$` is copied.  Values are put in as they are and not filled in again.

A template is taken apart into the marks that it holds, each with the text before
it, and the text after the last mark: this is `Template.split`.  `Template.resolve`
fills the marks in from left to right and stops at the first that fails.  An
opening `${` that is still left in the text after the last mark makes the template
malformed.
-/

namespace Provisioner

/-- A text that is filled in from variables before it is used. -/
structure Template where
  text : String
deriving DecidableEq, Repr, Inhabited

/-- Why a template cannot be filled in. -/
inductive TemplateError
  | unresolved (name template : String)
  | malformed (template : String)
deriving DecidableEq, Repr

namespace TemplateError

/-- The wording of the error. -/
def message : TemplateError → String
  | .unresolved name template =>
    "unresolved variable '" ++ name ++ "' in '" ++ template ++ "'"
  | .malformed template => "malformed template '" ++ template ++ "'"

/-- The variable without a value, if that is the error. -/
def unsetVariable? : TemplateError → Option String
  | .unresolved name _ => some name
  | .malformed _ => none

end TemplateError

namespace Template

/-- Where the values of variables come from. -/
abbrev Lookup := String → Option String

/-- The characters that a variable name can start with: ASCII letters and `_`. -/
def isNameStart (c : Char) : Bool :=
  c.isAlpha || c == '_'

/-- The characters that a variable name can go on with: ASCII letters, digits and `_`. -/
def isNameChar (c : Char) : Bool :=
  c.isAlphanum || c == '_'

/-- Whether a text is a variable name. -/
def isName : List Char → Bool
  | [] => false
  | c :: rest => isNameStart c && rest.all isNameChar

/-- What a `$` can start: a doubled `$`, or a reference with its text between the
braces or its bare name. -/
inductive Mark
  | dollar
  | reference (body : List Char)
deriving DecidableEq, Repr

/-- The text between an opening brace and the first closing one, and the text after it. -/
def closeBrace? (cs : List Char) : Option (List Char × List Char) :=
  match cs.dropWhile (· != '\x7d') with
  | [] => none
  | _ :: after => some (cs.takeWhile (· != '\x7d'), after)

/-- The mark that a `$` starts when `cs` follows it, and the text after the mark. -/
def mark? (cs : List Char) : Option (Mark × List Char) :=
  match cs with
  | [] => none
  | c :: rest =>
    if c = '$' then some (.dollar, rest)
    else if c = '\x7b' then (closeBrace? rest).map (fun p => (.reference p.1, p.2))
    else if isNameStart c then
      some (.reference (c :: rest.takeWhile isNameChar), rest.dropWhile isNameChar)
    else none

theorem length_dropWhile_le (p : Char → Bool) (cs : List Char) :
    (cs.dropWhile p).length ≤ cs.length :=
  (List.dropWhile_sublist p).length_le

/-- A mark takes at least one character after its `$`. -/
theorem mark?_length {cs after : List Char} {m : Mark} (h : mark? cs = some (m, after)) :
    after.length < cs.length := by
  unfold mark? at h
  split at h
  · simp at h
  · rename_i c rest
    split at h
    · simp only [Option.some.injEq, Prod.mk.injEq] at h
      simp [← h.2]
    · split at h
      · unfold closeBrace? at h
        have hle := length_dropWhile_le (· != '\x7d') rest
        split at h
        · simp at h
        · rename_i d more heq
          simp only [Option.map_some, Option.some.injEq, Prod.mk.injEq] at h
          rw [heq] at hle
          simp only [List.length_cons] at hle ⊢
          rw [← h.2]
          omega
      · split at h
        · simp only [Option.some.injEq, Prod.mk.injEq] at h
          have hle := length_dropWhile_le isNameChar rest
          rw [← h.2]
          simp only [List.length_cons]
          omega
        · simp at h

/-- A template taken apart: its marks, each with the text before it, and the text after
the last one. -/
structure Parts where
  marks : List (List Char × Mark)
  rest : List Char
deriving DecidableEq, Repr

/-- The parts with one more character in front. -/
def Parts.cons (c : Char) (p : Parts) : Parts :=
  match p.marks with
  | [] => ⟨[], c :: p.rest⟩
  | (before, m) :: marks => ⟨(c :: before, m) :: marks, p.rest⟩

/-- Takes a template apart, from left to right. -/
def split : List Char → Parts
  | [] => ⟨[], []⟩
  | c :: rest =>
    if c = '$' then
      match _h : mark? rest with
      | some (m, after) =>
        let p := split after
        ⟨([], m) :: p.marks, p.rest⟩
      | none => (split rest).cons c
    else (split rest).cons c
termination_by cs => cs.length
decreasing_by
  · have := mark?_length _h
    simp only [List.length_cons]
    omega
  · simp
  · simp

/-- Splits the text of a reference at its first `:-` into a name and a fallback. -/
def splitFallback : List Char → List Char × Option (List Char)
  | [] => ([], none)
  | ':' :: '-' :: fallback => ([], some fallback)
  | c :: rest =>
    let (name, fallback?) := splitFallback rest
    (c :: name, fallback?)

/-- The text that a reference stands for. -/
def substitute (template : String) (lookup : Lookup) (body : List Char) :
    Except TemplateError (List Char) :=
  let (name, fallback?) := splitFallback body
  if !isName name then .error (.malformed template)
  else
    match lookup (String.ofList name), fallback? with
    | some value, some fallback => .ok (if value.isEmpty then fallback else value.toList)
    | some value, none => .ok value.toList
    | none, some fallback => .ok fallback
    | none, none => .error (.unresolved (String.ofList name) template)

/-- The text that a mark stands for. -/
def fillMark (template : String) (lookup : Lookup) : Mark → Except TemplateError (List Char)
  | .dollar => .ok ['$']
  | .reference body => substitute template lookup body

/-- The marks filled in, with the texts between them. -/
def fillMarks (template : String) (lookup : Lookup) :
    List (List Char × Mark) → Except TemplateError (List Char)
  | [] => .ok []
  | (before, m) :: marks => do
    let here ← fillMark template lookup m
    let further ← fillMarks template lookup marks
    return before ++ here ++ further

/-- Whether a text holds an opening `${`. -/
def hasOpening : List Char → Bool
  | '$' :: '\x7b' :: _ => true
  | _ :: rest => hasOpening rest
  | [] => false

/-- Fills in a template given as characters. -/
def resolveChars (template : String) (lookup : Lookup) (cs : List Char) :
    Except TemplateError (List Char) := do
  let p := split cs
  let filled ← fillMarks template lookup p.marks
  if hasOpening p.rest then .error (.malformed template) else .ok (filled ++ p.rest)

/-- The template filled in from `lookup`. -/
def resolve (t : Template) (lookup : Lookup) : Except TemplateError String :=
  (resolveChars t.text lookup t.text.toList).map String.ofList

/-- Whether there is nothing to fill in or to copy. -/
def isEmpty (t : Template) : Bool := t.text.isEmpty

end Template

end Provisioner
