import Calculator.Evaluation.Memory
import Calculator.Text.Case

/-! # Help -/

namespace Calculator.Help

def syntaxExamples : List String :=
  ["x = 5 + 3x", "f(x, y) = x**2 + y", "0xFF & 0b1010 @bin", "[1, 2, 3] * 2",
    "\x7b'a': 1\x7d['a']", "x > 2 ? 'big' : 'small'", "$4.50 * 3", "sqrt(2) @sci"]

def operators : List String :=
  ["+ - * / % **: arithmetic, applied element-wise to arrays", "5x, 2(3): implied multiplication",
    "& | ^ << >> ~: bitwise operators (integers only)", "!: factorial",
    "== != < > <= >=: comparison", "&& ||: boolean and, boolean or", "a ? b : c: conditional",
    "a[i]: indexing into arrays, objects and strings", "= : assignment to a variable or to a[i]"]

def dataTypes : List String :=
  ["integer: 5, 1,000, 0xFF, 0b101, 0o17, 017", "float: 1.5, .5, 3e8", "boolean: true, false",
    "string: 'text' or \"text\"", "array: [1, 2, 3]", "object: \x7b'key': value\x7d",
    "currency: $1.00, €1.00, £1.00, ¥100"]

/-- A title, a rule as long as the title, and the entries. -/
def block (title : String) (entries : List String) : String :=
  let rule := String.ofList (List.replicate title.length '=')
  String.intercalate "\n" (title :: rule :: entries)

/-- A block only if there is something to put into it. -/
def blockOf (title : String) (entries : List String) : List String :=
  if entries.isEmpty then [] else [block title entries]

def functionBlocks (functions : FunctionTable) : List String :=
  functions.categories.map fun category =>
    let title :=
      if category = Function.commonCategory then "Miscellaneous" else Text.title category
    block (title ++ " Functions") ((functions.inCategory category).map Function.help)

def extensionEntries (extension : Extension) : List String :=
  extension.describe :: (extension.functionNames.map fun name => s!"  {name}(...)") ++
    extension.decoratorNames.map fun name => s!"  @{name}"

def text (setting : Setting) (memory : Memory) : String :=
  let extensions := (setting.host.map (·.extensions)).getD []
  let blocks :=
    [block "Syntax Examples" syntaxExamples, block "Operators" operators,
      block "Data Types" dataTypes] ++
    functionBlocks setting.functions ++
    [block "Built-in Decorators" (setting.decorators.sorted.map Decorator.help)] ++
    blockOf "Extensions" (extensions.flatMap extensionEntries) ++
    blockOf "User-defined Functions" (memory.definitions.sorted.map Definition.signature) ++
    blockOf "Defined Variables"
      (memory.bindings.sorted.map fun (name, value) => s!"{name} = {value.text}")
  String.intercalate "\n\n" blocks

/-! ## One function or decorator -/

def hostHasFunction (setting : Setting) (name : String) : Bool :=
  setting.host.any fun host => (host.function? name).isSome

def hostHasDecorator (setting : Setting) (name : String) : Bool :=
  setting.host.any fun host => (host.decorator? name).isSome

def describeDecorator (setting : Setting) (name : String) : Option String :=
  match setting.decorators.find? name with
  | some decorator => some decorator.help
  | none => if hostHasDecorator setting name then some ("@" ++ name) else none

def describeFunction (setting : Setting) (memory : Memory) (name : String) : Option String :=
  if hostHasFunction setting name then some s!"{name}(...)"
  else
    ((setting.functions.find? name).map Function.help).or
      ((memory.definitions.lookup name).map Definition.signature)

/-- In one line, if there is anything of that name. -/
def describe (setting : Setting) (memory : Memory) (name : String) : Option String :=
  match name.toList with
  | '@' :: rest => describeDecorator setting (String.ofList rest)
  | _ =>
    (describeFunction setting memory name).or ((setting.decorators.find? name).map Decorator.help)

end Calculator.Help
