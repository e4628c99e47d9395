import Calculator.Function.Angles
import Calculator.Function.Collections
import Calculator.Function.Cryptography
import Calculator.Function.Math
import Calculator.Function.Strings
import Calculator.Function.System

/-! # The functions that are always there -/

namespace Calculator

def FunctionTable.builtin : FunctionTable :=
  ⟨Builtin.mathFunctions ++ Builtin.angleFunctions ++ Builtin.collectionFunctions ++
    Builtin.stringFunctions ++ Builtin.engineFunctions ++ Builtin.cryptographyFunctions ++
    Builtin.systemFunctions⟩

end Calculator
