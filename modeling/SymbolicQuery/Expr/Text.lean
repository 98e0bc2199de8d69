import SymbolicQuery.Expr

/-! Expressions as they are shown: operators in parentheses, sources in brackets, constructions by
their members. -/
namespace SymbolicQuery

namespace Expr

def paramsText : List Param → String
  | [p] => p.name
  | ps => "(" ++ ", ".intercalate (ps.map Param.name) ++ ")"

def typeName? (type : ObjectType) : Option String := if type.anonymous then none else some type.name

mutual

def text : Expr → String
  | .constant _ _ value => value.text
  | .parameter _ param => param.name
  | .reference _ source => "[" ++ source.itemName ++ "]"
  | .access _ object member => object.text ++ "." ++ member.name
  | .getter _ object member => object.text ++ "." ++ member.name ++ "()"
  | .unary _ _ op operand => op.symbol ++ operand.text
  | .binary _ _ op left right => "(" ++ left.text ++ " " ++ op.symbol ++ " " ++ right.text ++ ")"
  | .textCall _ method receiver args =>
    receiver.text ++ "." ++ method.name ++ "(" ++ ", ".intercalate (texts args) ++ ")"
  | .stageCall _ _ stage input args =>
    input.text ++ "." ++ stage.name ++ "(" ++ ", ".intercalate (texts args) ++ ")"
  | .convert _ ty checked operand =>
    (if checked then "ConvertChecked(" else "Convert(") ++ operand.text ++ ", " ++ ty.text ++ ")"
  | .construct _ type members args =>
    if members.isEmpty then
      "new " ++ (typeName? type).getD "object" ++ "(" ++ ", ".intercalate (texts args) ++ ")"
    else
      "new " ++ ((typeName? type).map (· ++ " ")).getD "" ++
        "\x7b" ++ ", ".intercalate (fieldTexts members args) ++ "\x7d"
  | .populate _ _ base bindings =>
    base.text ++ " \x7b" ++ ", ".intercalate (bindingTexts bindings) ++ "\x7d"
  | .lambda _ params body => paramsText params ++ " => " ++ body.text

def texts : List Expr → List String
  | [] => []
  | e :: rest => e.text :: texts rest

def fieldTexts : List Member → List Expr → List String
  | m :: ms, e :: rest => (m.name ++ " = " ++ e.text) :: fieldTexts ms rest
  | _, _ => []

def bindingTexts : List Binding → List String
  | [] => []
  | .assign m value :: rest => (m.name ++ " = " ++ value.text) :: bindingTexts rest
  | .collect m items :: rest =>
    (m.name ++ " = [" ++ ", ".intercalate (texts items) ++ "]") :: bindingTexts rest

end

end Expr

def Lambda.text (l : Lambda) : String := Expr.paramsText l.params ++ " => " ++ l.body.text

end SymbolicQuery
