import QueryPipeline.Query.Expression
import QueryPipeline.Schema.Basic

namespace QueryPipeline

inductive Operation where
  | filter
  | search
  | sort
  | limitFields
  | paginate
  | populate
deriving DecidableEq

def Operation.handler : Operation → String
  | .filter => "ApiFeaturesFilter"
  | .search => "ApiFeaturesSearch"
  | .sort => "ApiFeaturesSort"
  | .limitFields => "ApiFeaturesProject"
  | .paginate => "ApiFeaturesLimit"
  | .populate => "ApiFeaturesPopulate"

inductive QueryFault where
  | controlNotText (key typeName : String)
  | controlNotScalar (key typeName : String)
  | operandIsMap (suffix field : String)
  | noMarker (field : String)
  | patternNotText (field : String)
deriving DecidableEq

namespace QueryFault

def message : QueryFault → String
  | .controlNotText key typeName => "`" ++ key ++ "` must be a string; " ++ typeName ++ " provided"
  | .controlNotScalar key typeName =>
    "`" ++ key ++ "` must be a scalar; " ++ typeName ++ " provided"
  | .operandIsMap suffix field =>
    "Operator `" ++ suffix ++ "` on `" ++ field ++ "` expects a value, not an object"
  | .noMarker field => "`" ++ field ++ "` expects a value, or an object with `s` or `p`"
  | .patternNotText field => "`" ++ field ++ "[s]` must be a string"

end QueryFault

inductive Fault where
  | mismatch (cause : Mismatch)
  | invalidQuery (cause : QueryFault)
  | invalidValue (field : String) (value : Value) (expected : FieldType)
  | unresolvedRelation (model : Option String) (key : String)
  | settingsFrozen
  | settingsTwice
  | unknownSettings (names : List String)
  | invalidPageSize (value : Value)
  | aliasedModel
  | operationReused (operation : Operation)
  | alreadyCompiled
  | noCollection
  | notFilter (expression : Expression)
  | engineDown

namespace Fault

/-- The message of a fault; a mismatch has none. -/
def message? : Fault → Option String
  | .mismatch _ => none
  | .invalidQuery cause => some ("Query object error: " ++ cause.message)
  | .invalidValue field value expected =>
    some ("Query object error: Invalid value " ++ value.literal ++ " for field \"" ++ field ++
      "\": expected " ++ expected.name)
  | .unresolvedRelation model key =>
    some ("Field \"" ++ key ++ "\" of \"" ++ model.getD "None" ++
      "\" has no relation target and cannot be populated")
  | .settingsFrozen =>
    some ("Default settings have already been used by a query and cannot be changed. " ++
      "Call configure() before handling any request, " ++
      "or give custom settings to ApiFeatures directly.")
  | .settingsTwice => some "Provide either a settings object, or keyword settings"
  | .unknownSettings names =>
    some ("Invalid settings were provided for ApiFeatures: " ++ String.intercalate "," names)
  | .invalidPageSize value =>
    some ("default_limit must be a positive integer, " ++ value.literal ++ " given")
  | .aliasedModel => some "ModelSchema does not tolerate aliased() models"
  | .operationReused operation =>
    some ("You can't use the " ++ operation.handler ++ ".input() method twice: " ++
      "every ApiFeatures operation can only be applied once")
  | .alreadyCompiled =>
    some ("The pipeline has already been compiled with end(): " ++
      "no more operations can be added")
  | .noCollection => some "Call with_collection() before executing the pipeline"
  | .notFilter expression => some ("Unknown expression: " ++ expression.literal)
  | .engineDown => some "engine is down"

end Fault

def Mismatch.lift {α : Type} (result : Except Mismatch α) : Except Fault α :=
  result.mapError Fault.mismatch

end QueryPipeline
