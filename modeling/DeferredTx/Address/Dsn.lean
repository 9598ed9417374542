import DeferredTx.Address.Url
import DeferredTx.DatabaseKind
import DeferredTx.Error
import DeferredTx.Text.Blank

/-!
# Data source names

A DSN is the address of a database. Behind a prefix it asks for a connection under a controller.

* `Dsn.delegate?`: the address of the wrapped database, without the prefix.
* `Dsn.validate`: the kind of database, if a connection to the address can be tried.
* `Dsn.mask`: the DSN with its password masked. What does not read as a URL is redacted altogether,
  since it may hold a password too.
-/

namespace DeferredTx.Dsn

open Address Text

/-- The prefix that asks for a controller. -/
def marker : String := "smartcommit:"

/-- The address behind the prefix. -/
def delegate? (dsn : String) : Option String :=
  if marker.toList.isPrefixOf dsn.toList then
    some (String.ofList (dsn.toList.drop marker.toList.length))
  else none

/-- Whether a DSN asks for a controller. -/
def accepts (dsn : String) : Bool :=
  (delegate? dsn).isSome

/-- The address of the database itself, with or without the prefix. -/
def address (dsn : String) : String :=
  (delegate? dsn).getD dsn

/-- Why no connection can be tried. -/
inductive Fault where
  | empty
  | unknownDatabase (url : String)
  | unreadable (e : UrlError)
  | noHost
  | portZero
  deriving DecidableEq, Repr

/-- The wording of a fault, the outermost message first. -/
def Fault.chain : Fault → List String
  | .empty => ["DSN cannot be empty"]
  | .unknownDatabase url => [(DbError.unknownDatabase url).message]
  | .unreadable e => ["Failed to parse DSN as URL", e.message]
  | .noHost => ["DSN missing hostname"]
  | .portZero => ["Invalid port number: 0. Must be 1-65535"]

/-- The kind of database that a DSN names, if a connection can be tried. The address of an SQLite
database need not be a URL. -/
def validate (dsn : String) : Except Fault DatabaseKind :=
  let url := address dsn
  if allBlank url.toList then .error .empty
  else match DatabaseKind.ofUrl? url with
    | none => .error (.unknownDatabase url)
    | some .sqlite => .ok .sqlite
    | some kind =>
      match Url.read url.toList with
      | .error e => .error (.unreadable e)
      | .ok u =>
        if !u.hasHost then .error .noHost
        else if u.port = some 0 then .error .portZero
        else .ok kind

/-- What stands for a password, and what for a text that is no URL. -/
def masked : List Char := ['*', '*', '*']

/-- What stands for an address that does not read as a URL. -/
def redacted : String := "<redacted>"

/-- The DSN with its password masked. -/
def mask (dsn : String) : String :=
  let front := if accepts dsn then marker else ""
  match Url.read (address dsn).toList with
  | .ok u =>
    if u.password.isSome then
      match u.setPassword? masked with
      | some safe => front ++ String.ofList safe.render
      | none => front ++ redacted
    else dsn
  | .error _ => front ++ redacted

end DeferredTx.Dsn
