import Calculator.Pattern.Basic

/-!
# Searching for a pattern

A matcher goes on with the rest of the pattern from every place that it can reach, the preferred
place first, until the rest matches too.
-/

namespace Calculator

/-- Where a match stands, and what the captures have taken, the latest first. -/
structure Progress where
  place : Nat
  captures : List (Nat × Nat × Nat)

namespace Progress

def captured? (progress : Progress) (number : Nat) : Option (Nat × Nat) :=
  progress.captures.lookup number

def capture (progress : Progress) (number start : Nat) : Progress :=
  { progress with captures := (number, start, progress.place) :: progress.captures }

end Progress

abbrev Matcher := Progress → (Progress → Option Progress) → Option Progress

namespace Matcher

/--
Rounds of a body. After the required rounds, a round that starts where the one before it started
takes nothing, so there is none. This bounds their number by the characters left.
-/
def rounds (body : Matcher) (least : Nat) (most : Option Nat) (lazy : Bool) :
    Nat → Nat → Option Nat → Matcher
  | 0, _, _ => fun _ _ => none
  | fuel + 1, count, last => fun progress next =>
    if count < least then
      body progress fun p => rounds body least most lazy fuel (count + 1) last p next
    else
      let more := fun (_ : Unit) =>
        if most.all (count < ·) && last ≠ some progress.place then
          body progress fun p =>
            rounds body least most lazy fuel (count + 1) (some progress.place) p next
        else none
      if lazy then
        match next progress with
        | some found => some found
        | none => more ()
      else
        match more () with
        | some found => some found
        | none => next progress

end Matcher

namespace Pattern

section

variable (text : Array Char)

/-- The text between two places, again at a third. -/
def isSameText (manner : Manner) (start size place : Nat) : Bool :=
  place + size ≤ text.size && (List.range size).all fun i =>
    match text[start + i]?, text[place + i]? with
    | some a, some b => if manner.ignoreCase then Text.sameLetter manner.ascii a b else a = b
    | _, _ => false

mutual

def run : Pattern → Matcher
  | one manner test => fun progress next =>
    match text[progress.place]? with
    | some c =>
      if test.holds manner c then next { progress with place := progress.place + 1 } else none
    | none => none
  | anchor manner a => fun progress next =>
    if a.holds manner text progress.place then next progress else none
  | sequence parts => runAll parts
  | choice branches => runAny branches
  | capture number body => fun progress next =>
    run body progress fun p => next (p.capture number progress.place)
  | atomic body => fun progress next => (run body progress some).bind next
  | rounds least most appetite body => fun progress next =>
    let fuel := least + (text.size - progress.place) + 2
    match appetite with
    | .greedy => Matcher.rounds (run body) least most false fuel 0 none progress next
    | .lazy => Matcher.rounds (run body) least most true fuel 0 none progress next
    | .possessive =>
      (Matcher.rounds (run body) least most false fuel 0 none progress some).bind next
  | again manner number _ => fun progress next =>
    match progress.captured? number with
    | some (start, stop) =>
      if isSameText text manner start (stop - start) progress.place then
        next { progress with place := progress.place + (stop - start) }
      else none
    | none => none
  | look behind negated body => fun progress next =>
    let back := if behind then (width body).least else 0
    let seen :=
      if progress.place < back then none
      else run body { progress with place := progress.place - back } some
    match seen, negated with
    | some p, false => next { p with place := progress.place }
    | none, true => next progress
    | _, _ => none
  | depending number yes no => fun progress next =>
    if (progress.captured? number).isSome then run yes progress next else run no progress next

def runAll : List Pattern → Matcher
  | [] => fun progress next => next progress
  | part :: parts => fun progress next => run part progress fun p => runAll parts p next

def runAny : List Pattern → Matcher
  | [] => fun _ _ => none
  | branch :: branches => fun progress next =>
    match run branch progress next with
    | some found => some found
    | none => runAny branches progress next

end

/-- What a match has taken as a whole, and its captures. -/
structure Found where
  start : Nat
  progress : Progress

/-- The first place from which the pattern matches. -/
def search? (pattern : Pattern) : Option Found :=
  (List.range (text.size + 1)).findSome? fun start =>
    (run text pattern ⟨start, []⟩ some).map (Found.mk start)

end

/-- The text of a capture. Zero is the whole match. -/
def Found.group? (text : Array Char) (found : Found) (number : Nat) : Option String :=
  let span :=
    if number = 0 then some (found.start, found.progress.place)
    else found.progress.captured? number
  span.map fun (start, stop) => String.ofList (text.extract start stop).toList

end Pattern

end Calculator
