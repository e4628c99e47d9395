import Calculator.Grammar.Grammar

/-!
# The chart of a line

The chart is filled from the last token to the first. For each place and each nonterminal it holds
every way to end there: how many tokens are then left over, and the preferred tree. Trees with more
calls are preferred, then earlier alternatives, then a shorter last part. Places are counted by the
tokens that are left from there on.
-/

namespace Calculator.Grammar

/-- A tree in the making. The last child comes first. -/
inductive Sketch where
  | leaf (token : Token)
  | node (rule : Rule) (children : List Sketch)
  deriving Repr

/-- One way to end. -/
structure Ending where
  /-- How many tokens are left over. -/
  rest : Nat
  calls : Nat
  /-- What the node above gets as children, the last one first. -/
  parts : List Sketch
  /-- The place of its alternative among the others. -/
  order : Nat
  /-- Where its last part starts. -/
  split : Nat
  deriving Repr

/-- All ways to end, those with more tokens left first, and the fewest tokens left by any try. -/
structure Found where
  ends : List Ending
  reach : Nat
  deriving Repr

namespace Ending

def start (place : Nat) : Ending := ⟨place, 0, [], 0, place⟩

def beats (a b : Ending) : Bool :=
  b.calls < a.calls ||
    (a.calls = b.calls && (a.order < b.order || (a.order = b.order && a.split < b.split)))

/-- Keeps the better one of two that end at the same place. -/
def addTo (e : Ending) : List Ending → List Ending
  | [] => [e]
  | f :: fs =>
    if f.rest < e.rest then e :: f :: fs
    else if f.rest = e.rest then (if e.beats f then e else f) :: fs
    else f :: addTo e fs

end Ending

namespace Found

def nothing (place : Nat) : Found := ⟨[], place⟩

def merge (a b : Found) : Found := ⟨a.ends.foldr Ending.addTo b.ends, min a.reach b.reach⟩

def withOrder (order : Nat) (found : Found) : Found :=
  { found with ends := found.ends.map fun e => { e with order } }

end Found

structure Cell where
  token : Token
  found : Array Found

/-- The cells of the places with one token left, two tokens left, and so on. -/
abbrev Chart := Array Cell

/-- The chart with one more cell that is only filled in part. -/
structure View where
  below : Chart
  token : Token
  here : Array Found

namespace View

def token? (view : View) : Nat → Option Token
  | 0 => none
  | place + 1 =>
    if place = view.below.size then some view.token else view.below[place]?.map (·.token)

def found (view : View) (n : Nonterminal) : Nat → Found
  | 0 => .nothing 0
  | place + 1 =>
    let row := if place = view.below.size then view.here else (view.below[place]?.map (·.found)).getD #[]
    row.getD n.ctorIdx (.nothing (place + 1))

/-- What the symbol can be at a place. -/
def symbol (view : View) (place : Nat) : Symbol → Found
  | .terminal kind =>
    match view.token? place with
    | some token =>
      if token.kind = kind then ⟨[⟨place - 1, 0, [.leaf token], 0, place⟩], place - 1⟩
      else .nothing place
    | none => .nothing place
  | .nonterminal n => view.found n place

/-- Goes on from each ending with what comes next. -/
def extend (next : Nat → Found) (found : Found) : Found :=
  found.ends.foldr
    (fun e others =>
      let more := next e.rest
      let ends := more.ends.map fun f =>
        { f with calls := e.calls + f.calls, parts := f.parts ++ e.parts, order := 0, split := e.rest }
      Found.merge ⟨ends, more.reach⟩ others)
    ⟨[], found.reach⟩

def symbols (view : View) (found : Found) (symbols : List Symbol) : Found :=
  symbols.foldl (fun found s => extend (view.symbol · s) found) found

/-- One round after an ending. Those after the first round come later in order. -/
def round (view : View) (rounds : List (List Symbol)) (shift : Nat) (e : Ending) : Found :=
  rounds.zipIdx.foldr
    (fun (round, i) others =>
      let found := (view.symbols ⟨[e], e.rest⟩ round).withOrder (shift + i)
      let ends := found.ends.map fun f => { f with split := e.rest }
      Found.merge ⟨ends, found.reach⟩ others)
    (.nothing e.rest)

/--
One more round after each pending ending, those with most tokens left first. Each of them leaves
fewer tokens than the one before, so the number of tokens is fuel enough.
-/
def moreRounds (view : View) (rounds : List (List Symbol)) : Nat → Found → Found
  | 0, pending => ⟨[], pending.reach⟩
  | fuel + 1, pending =>
    match pending.ends with
    | [] => pending
    | e :: others =>
      let next := (view.round rounds rounds.length e).merge ⟨others, pending.reach⟩
      let found := moreRounds view rounds fuel next
      { found with ends := e :: found.ends }

def repetition (view : View) (repetition : Repetition) (place : Nat) : Found :=
  let rounds := repetition.rounds
  moreRounds view rounds place (view.round rounds 0 (.start place))

def part (view : View) (place : Nat) : Part → Found
  | .one s => view.symbol place s
  | .many r => view.repetition r place

def alternative (view : View) (parts : List Part) (place : Nat) : Found :=
  parts.foldl (fun found p => extend (view.part · p) found) ⟨[.start place], place⟩

/-- The endings of the nonterminal itself, with its node made. -/
def close (n : Nonterminal) (e : Ending) : Ending :=
  { e with
    calls := if n = .call then e.calls + 1 else e.calls
    parts := match n.rule? with
      | some rule => [.node rule e.parts]
      | none => e.parts }

def search (view : View) (n : Nonterminal) : Found :=
  let place := view.below.size + 1
  let found := n.alternatives.zipIdx.foldr
    (fun (parts, i) others => ((view.alternative parts place).withOrder i).merge others)
    (.nothing place)
  { found with ends := found.ends.map (close n) }

end View

/-- One more cell for a token before all others. -/
def Chart.add (chart : Chart) (token : Token) : Chart :=
  let found := Nonterminal.all.foldl (fun here n => here.push (View.search ⟨chart, token, here⟩ n)) #[]
  chart.push ⟨token, found⟩

def Chart.ofTokens : List Token → Chart
  | [] => #[]
  | token :: tokens => (Chart.ofTokens tokens).add token

/-- What the nonterminal can be at the first token. -/
def Chart.top (chart : Chart) (n : Nonterminal) : Found :=
  match chart.back? with
  | some cell => cell.found.getD n.ctorIdx (.nothing chart.size)
  | none => .nothing 0

end Calculator.Grammar
