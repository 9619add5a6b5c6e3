import Ident160.Digit

/-!
The home directory that the system keeps for an account. The account of a process is a number in
the status of the process, and the system lists accounts line by line, with colons between the
fields of each.
-/

namespace Ident160.Account

def fields (isSeparator : Char → Bool) : List Char → List (List Char)
  | [] => [[]]
  | c :: cs =>
    match fields isSeparator cs with
    | [] => []
    | field :: rest =>
      if isSeparator c then [] :: field :: rest else (c :: field) :: rest

def lines (text : String) : List (List Char) := fields (· = '\n') text.toList

/-- The number of the account that a process runs under, from its status. -/
def number? (status : String) : Option (List Char) :=
  (lines status).findSome? fun line =>
    match fields (fun c => c = '\t' || c = ' ') line with
    | label :: number :: _ => if label = "Uid:".toList then some number else none
    | _ => none

def home? (number : List Char) (accounts : String) : Option String :=
  (lines accounts).findSome? fun line =>
    match fields (· = ':') line with
    | _name :: _password :: id :: _group :: _comment :: home :: _ =>
      if id = number && !home.isEmpty then some (String.ofList home) else none
    | _ => none

end Ident160.Account
