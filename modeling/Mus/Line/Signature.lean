/-! How many arguments something takes, and what is said when it gets another
number of them. -/
namespace Mus.Line

/-- The name of something that takes arguments, the names of the arguments it
needs and the number of those that may be left out. A receiver is an argument
that comes by itself and is counted with the others. -/
structure Signature where
  name : String
  required : List String
  optional : Nat := 0
  receiver : Bool := true

inductive ArityFault where
  | missing (signature : Signature) (names : List String)
  | excess (signature : Signature) (given : Nat)

namespace Signature

def check (signature : Signature) (given : Nat) : Except ArityFault Unit :=
  if given < signature.required.length then
    .error (.missing signature (signature.required.drop given))
  else if signature.required.length + signature.optional < given then
    .error (.excess signature given)
  else .ok ()

end Signature

namespace ArityFault

/-- Names in quotes, the last one after an "and". -/
def listed : List String → String
  | [] => ""
  | [a] => "'" ++ a ++ "'"
  | [a, b] => "'" ++ a ++ "' and '" ++ b ++ "'"
  | a :: b :: rest => "'" ++ a ++ "', " ++ tail (b :: rest)
where
  /-- The names after the first of three or more. -/
  tail : List String → String
    | [] => ""
    | [a] => "and '" ++ a ++ "'"
    | a :: rest => "'" ++ a ++ "', " ++ tail rest

def message : ArityFault → String
  | .missing signature names =>
      signature.name ++ "() missing " ++ toString names.length ++ " required positional argument" ++
        (if names.length = 1 then "" else "s") ++ ": " ++ listed names
  | .excess signature given =>
      let self := if signature.receiver then 1 else 0
      let least := signature.required.length + self
      let most := least + signature.optional
      let all := given + self
      let takes :=
        if signature.optional = 0 then
          toString most ++ " positional argument" ++ (if most = 1 then "" else "s")
        else "from " ++ toString least ++ " to " ++ toString most ++ " positional arguments"
      signature.name ++ "() takes " ++ takes ++ " but " ++ toString all ++
        (if all = 1 then " was" else " were") ++ " given"

end ArityFault

end Mus.Line
