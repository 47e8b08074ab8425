import FieldTree.Field.Basic
import FieldTree.Json.Display
import FieldTree.Selector.Basic
/-! What can be wrong with a schema document. -/

namespace FieldTree

/-- Keywords that list alternative or joint schemas. -/
inductive Combinator
  | anyOf
  | allOf
  | oneOf
  deriving DecidableEq

def Combinator.keyword : Combinator → String
  | .anyOf => "anyOf"
  | .allOf => "allOf"
  | .oneOf => "oneOf"

/-- The document itself is unreadable. -/
inductive FormatError
  | undecodable
  | rootNotObject
  deriving DecidableEq

/-- The document is readable, but makes no sense as a schema. Fields are told by name. -/
inductive SemanticError
  | unsupportedShape (field : Option String)
  | noItems (field : Option String)
  | branchesNotSchemas (combinator : Combinator) (field : Option String)
  | noType (field : Option String)
  | foreignReference (reference : String)
  | undeclared (target : String)
  | unresolvedAlias (name target : String)
  | mutualAlias (name target : String)
  | unresolved (field : Option String)
  | emptyCombination (combinator : Combinator) (field : Option String)
  | scalarAllOf (field : Option String)
  | mixedCombination (field : Option String)
  | emptyEnum (field : Option String)
  | notNumeric (keyword : String) (field : Option String) (value : Json)
  | notInteger (keyword : String) (field : Option String)
  | tooDeep

inductive ResolutionError
  | format (cause : FormatError)
  | semantic (cause : SemanticError)

/-- Failures by kind. -/
inductive ErrorKind
  | format
  | semantic
  | missingDefinition
  | unsupportedReference
  | noType
  | unsupportedShape
  | incorrectCombination
  | mixedCombination
  deriving DecidableEq

def SemanticError.kind : SemanticError → ErrorKind
  | .unsupportedShape _ => .unsupportedShape
  | .noItems _ => .unsupportedShape
  | .branchesNotSchemas .. => .unsupportedShape
  | .noType _ => .noType
  | .foreignReference _ => .unsupportedReference
  | .undeclared _ => .missingDefinition
  | .unresolvedAlias .. => .missingDefinition
  | .mutualAlias .. => .missingDefinition
  | .unresolved _ => .missingDefinition
  | .emptyCombination .. => .semantic
  | .scalarAllOf _ => .incorrectCombination
  | .mixedCombination _ => .mixedCombination
  | .emptyEnum _ => .semantic
  | .notNumeric .. => .semantic
  | .notInteger .. => .semantic
  | .tooDeep => .semantic

def ResolutionError.kind : ResolutionError → ErrorKind
  | .format _ => .format
  | .semantic cause => cause.kind

def FormatError.message : FormatError → String
  | .undecodable => "Wrong Json Schema: <decode error>"
  | .rootNotObject => "Wrong Json Schema: the root must be a JSON object."

/-- A field as it is told in messages. -/
def fieldText (field : Option String) : String := "field '" ++ nameText field ++ "'"

def SemanticError.message : SemanticError → String
  | .unsupportedShape field => "Not supported file: " ++ fieldText field ++ "."
  | .noItems field => "Not supported file: array " ++ fieldText field ++ " declares no items schema."
  | .branchesNotSchemas combinator field =>
    "Not supported file: '" ++ combinator.keyword ++ "' of " ++ fieldText field ++ " must list schemas."
  | .noType field => "Not Type Object found: " ++ fieldText field ++ "."
  | .foreignReference reference => "Reference not Supported: " ++ reference
  | .undeclared target => missing ("'" ++ target ++ "' is not declared.")
  | .unresolvedAlias name target =>
    missing ("'" ++ name ++ "' references unresolved definition '" ++ target ++ "'.")
  | .mutualAlias name target => missing ("'" ++ name ++ "' and '" ++ target ++ "' reference each other.")
  | .unresolved field => missing (fieldText field ++ " is unresolved.")
  | .emptyCombination combinator field =>
    "Combination '" ++ combinator.keyword ++ "' of " ++ fieldText field ++ " is empty."
  | .scalarAllOf field => "Incorrect type in combination: " ++ fieldText field ++ "."
  | .mixedCombination field =>
    "Incorrect combination, types and properties mixed: " ++ fieldText field ++ "."
  | .emptyEnum field => "Enum " ++ fieldText field ++ " declares no values to default to."
  | .notNumeric keyword field value =>
    keyword ++ " of " ++ fieldText field ++ " must be numeric, got " ++ value.display ++ "."
  | .notInteger keyword field => keyword ++ " of " ++ fieldText field ++ " must be an integer."
  | .tooDeep => "Not supported file: schema nesting is too deep to resolve."
where
  missing (what : String) : String := "Wrong Json Schema, Missing definition: " ++ what

def ResolutionError.message : ResolutionError → String
  | .format cause => cause.message
  | .semantic cause => cause.message

/-- Why a resolution ends without a schema. The document is at fault, or the selector is, or a field was
asked for what it does not have. -/
inductive Failure
  | document (error : ResolutionError)
  | choice (error : ChoiceError)
  | field (error : FieldError)

end FieldTree
