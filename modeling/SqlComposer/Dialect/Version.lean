import SqlComposer.Fault

/-! Major versions, as they are asked for and as connections report them. Version 0 stands for an
unknown server. -/

namespace SqlComposer.Version

def checked (n : Int) : Except Fault Nat :=
  if n < 0 then .error .negativeVersion else .ok n.toNat

/-- A version that is asked for: an integer that is not negative, or a text of one. True counts as
one. -/
def ofValue : Value → Except Fault Nat
  | .int n => checked n
  | .bool b => .ok b.toNat
  | .text s =>
    match Text.Numeral.decimalInteger s with
    | .ok n => checked n
    | .error .malformed => .error .versionNotNumeral
    | .error (.tooLong _) => .error .versionTooLong
  | _ => .error .versionNotInteger

def ofReported : Value → Except Fault Value
  | .text s =>
    match Text.Numeral.integer s with
    | .ok n => .ok (.int n)
    | .error .malformed => .error (.reportedVersion s)
    | .error (.tooLong digits) => .error (.reportedVersionTooLong digits)
  | v => .ok v

end SqlComposer.Version
