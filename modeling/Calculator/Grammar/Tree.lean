import Calculator.Grammar.Chart

/-! # Trees -/

namespace Calculator.Grammar

/-- A script as a tree. Every node knows its piece of the source. -/
inductive Tree where
  | leaf (kind : Terminal) (site : Site)
  | node (rule : Rule) (site : Site) (children : List Tree)
  deriving Repr

namespace Tree

def site : Tree → Site
  | leaf _ site => site
  | node _ site _ => site

def children : Tree → List Tree
  | leaf .. => []
  | node _ _ children => children

def name : Tree → String
  | leaf kind _ => kind.name
  | node rule _ _ => rule.name

def input (tree : Tree) : String := tree.site.text

/-- The place after its last character. -/
def stop (tree : Tree) : Nat := tree.site.index + tree.site.text.length

def isLeaf (kind : Terminal) : Tree → Bool
  | leaf k _ => k = kind
  | node .. => false

/-- From the start of the first child to the end of the last one. -/
def span (source : Array Char) (children : List Tree) : Site :=
  match children.head?, children.getLast? with
  | some first, some last =>
    let start := first.site.index
    ⟨String.ofList (source.extract start last.stop).toList, start⟩
  | _, _ => ⟨"", 0⟩

/-- A node, or its only child if it may not stay alone with it. -/
def collapse (source : Array Char) (rule : Rule) (children : List Tree) : Tree :=
  match children with
  | [child] => if rule.staysAlone then node rule (span source [child]) [child] else child
  | _ => node rule (span source children) children

mutual

def ofSketch (source : Array Char) : Sketch → Tree
  | .leaf token => leaf token.kind token.site
  | .node rule parts => collapse source rule (ofSketches source parts [])

/-- The sketches come in reverse. -/
def ofSketches (source : Array Char) : List Sketch → List Tree → List Tree
  | [], trees => trees
  | sketch :: sketches, trees => ofSketches source sketches (ofSketch source sketch :: trees)

end

end Tree

end Calculator.Grammar
