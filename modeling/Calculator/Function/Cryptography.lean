import Calculator.Digest.Md5
import Calculator.Digest.Sha256
import Calculator.Function.Mapping
import Calculator.Value.Conversion

/-! # Digests and chance -/

namespace Calculator.Builtin

def cryptography (name : String) (parameters : List Parameter) (description : String)
    (behaviour : Behaviour) : Function :=
  ⟨⟨name, parameters⟩, description, some "cryptography", behaviour⟩

/-- The digest of all texts as one. -/
def digestOf (digest : List UInt8 → List UInt8) (call : Call) : Attempt Value :=
  let bytes := (call.all "input").flatMap fun value => Text.toBytes value.text
  .ok (.string (Digest.hexText (digest bytes)))

def choose (drawn : Nat) (call : Call) : Attempt Value :=
  let options := call.all "option"
  match options[drawn % options.length]? with
  | some value => .ok value
  | none => .ok .none

/-- An optional bound, which must be an integer. -/
def bound (call : Call) (position : Nat) (name : String) : Attempt (Option Int) :=
  match call.first? name with
  | none => .ok none
  | some value =>
    match value.integer? with
    | some n => .ok (some n)
    | none => call.fail (.argumentType position .int call.signature.text)

/-- At least zero and less than one. -/
def fraction (drawn : Nat) : Float :=
  Float.ofScientific (drawn % 0x20000000000000) false 0 /
    Float.ofScientific 0x20000000000000 false 0

/-- Both bounds can be drawn, and they may come in either order. -/
def between (drawn : Nat) (a b : Int) : Int := min a b + drawn % ((a - b).natAbs + 1)

def rand (drawn : Nat) (call : Call) : Attempt Value := do
  let m ← bound call 1 "m"
  let n ← bound call 2 "n"
  match m, n with
  | none, _ => return .float (fraction drawn)
  | some m, none => return .int (between drawn 0 m)
  | some m, some n => return .int (between drawn m n)

def cryptographyFunctions : List Function :=
  [cryptography "choose" [{ name := "option", plural := true }]
      "Returns any one of the provided arguments at random" (.draw choose),
    cryptography "rand" [⟨"m", .int, true, false⟩, ⟨"n", .int, true, false⟩]
      "Returns a number from 0 to 1, or an integer from 0 to [m], or from [m] to [n]"
      (.draw rand),
    cryptography "md5" [{ Parameter.string "input" with plural := true }]
      "Returns the MD5 hash of a given string" (.compute (digestOf Digest.Md5.digest)),
    cryptography "sha256" [{ Parameter.string "input" with plural := true }]
      "Returns the SHA256 hash of a given string" (.compute (digestOf Digest.Sha256.digest))]

end Calculator.Builtin
