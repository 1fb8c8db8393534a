import Provisioner.Dotenv

/-!
# Store failures

What can go wrong when values are stored or a stored file is opened, and which keys
can be stored under.
-/

namespace Provisioner.Store

/-- Why a store cannot be opened or written. -/
inductive Failure
  | io (path : String) (error : IoError)
  | parse (path : String) (error : Dotenv.Failure)
  | invalidKey (key : String)
deriving DecidableEq, Repr

namespace Failure

/-- The wording of a failure. -/
def message : Failure → String
  | .io path error => "IO error on " ++ path ++ ": " ++ error.message
  | .parse path error => "invalid dotenv file " ++ path ++ ": " ++ error.message
  | .invalidKey key => "invalid key '" ++ key ++ "'"

/-- The reasons behind a failure. -/
def causes : Failure → List String
  | .io _ error => [error.message]
  | _ => []

end Failure

/-- Whether values can be stored under a key: an ASCII letter or `_`, and then letters,
digits and `_`. -/
def isKey (key : String) : Bool :=
  match key.toList with
  | [] => false
  | c :: rest => (c.isAlpha || c == '_') && rest.all (fun d => d.isAlphanum || d == '_')

/-- Refuses a key that values cannot be stored under. -/
def checkKey (key : String) : Except Failure Unit :=
  if isKey key then .ok () else .error (.invalidKey key)

/-- Refuses the first key that values cannot be stored under. -/
def checkKeys : List (String × String) → Except Failure Unit
  | [] => .ok ()
  | (key, _) :: rest => do checkKey key; checkKeys rest

end Provisioner.Store
