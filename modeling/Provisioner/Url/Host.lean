import Provisioner.Text.Utf8
import Provisioner.Url.Address
import Provisioner.Url.Domain
import Provisioner.Url.Percent

/-!
# Hosts

The host of a URL is an address or a name.  In the URLs of the web a name is a domain
name, and a name that ends in a number has to be an address; in other URLs it is any
text without the marks that have a meaning.

`Host.ofWeb?` and `Host.ofOther?` give the normal form of a host in the two cases.
-/

namespace Provisioner.Url.Host

/-- An address in brackets. -/
def bracketed? (cs : List Char) : Option (List Char) :=
  match cs.reverse with
  | ']' :: inner => (IPv6.parse? inner.reverse).map fun ps => '[' :: (IPv6.render ps ++ [']'])
  | _ => none

/-- A host in a URL of the web. -/
def ofWeb? (cs : List Char) : Option (List Char) :=
  match cs with
  | '[' :: rest => bracketed? rest
  | _ => do
    let text ← Text.Utf8.decode? (Percent.decode cs)
    let name ← Domain.toAscii? text.toList
    if name.isEmpty then none
    else if IPv4.isMeant name then (IPv4.parse? name).map IPv4.render
    else some name

/-- Whether a character can stand in no host at all. -/
def isForbidden (c : Char) : Bool :=
  c.toNat == 0 || c == '\t' || c == '\n' || c == '\r' || c == ' ' || c == '#' || c == '/'
    || c == ':' || c == '<' || c == '>' || c == '?' || c == '@' || c == '[' || c == '\\'
    || c == ']' || c == '^' || c == '|'

/-- A host in any other URL; it may be empty. -/
def ofOther? (cs : List Char) : Option (List Char) :=
  match cs with
  | '[' :: rest => bracketed? rest
  | _ => if cs.any isForbidden then none else some (Percent.encode Percent.control cs)

end Provisioner.Url.Host
