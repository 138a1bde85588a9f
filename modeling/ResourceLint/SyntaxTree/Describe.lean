import ResourceLint.SyntaxTree
import ResourceLint.Text.Quoted

/-!
# Descriptions of bindings

A binding is described by the kind of its declaration and its name, or its line if it has none.
-/

namespace ResourceLint

def Binding.describe : Binding → String
  | .assign stmt => s!"Assign(line {stmt.span.line})"
  | .type d => s!"Type({d.name})"
  | .func f => s!"Func({f.name})"
  | .field g => "Field(" ++ Text.quotedList g.names ++ ")"
  | .value spec => "Value(" ++ Text.quotedList spec.names ++ ")"

end ResourceLint
