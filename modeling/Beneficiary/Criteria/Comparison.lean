import Beneficiary.Criteria.Error
import Beneficiary.Field.Descriptor
import Beneficiary.Field.Value

/-!
# Comparisons

A comparison has its arguments read as values of the field's type, so evaluating it cannot fail.
Arguments are checked in a fixed order: the method against the type, their number, then each
argument from the left. A missing value satisfies only the negated comparisons.
-/

namespace Beneficiary

/-- A comparison with its arguments read. Sets of options ascend and hold each option once. -/
inductive Comparison where
  | equals (value : Value)
  | notEquals (value : Value)
  /-- Something is selected, and all that is selected is in the set. -/
  | within (options : List String)
  /-- Nothing is selected, or something outside the set. -/
  | notWithin (options : List String)
  /-- The needle occurs in the text. -/
  | substring (needle : String)
  /-- Something selected is in the set. -/
  | intersects (options : List String)
  | range (low high : Value)
  | greaterThan (bound : Value)
  | lessThan (bound : Value)
deriving DecidableEq, Repr

/-- Whether a comparison is defined for a type. -/
def ComparisonMethod.supports (method : ComparisonMethod) (type : ValueType) : Bool :=
  match method with
  | .equals => true
  | .notEquals => true
  | .contains => type == .string || type == .list
  | .range => type.isOrdered
  | .greaterThan => type.isOrdered
  | .lessThan => type.isOrdered

/-- The number of arguments of a comparison: two ends of a range, any options of a selection, or
one value. -/
def ComparisonMethod.arity (method : ComparisonMethod) (type : ValueType) : Arity :=
  match method, type with
  | .equals, .list => .atLeast 1
  | .notEquals, .list => .atLeast 1
  | .contains, .list => .atLeast 1
  | .range, _ => .exactly 2
  | _, _ => .exactly 1

/-- Puts an option into an ascending list, unless it is there. -/
def insertOption (option : String) : List String → List String
  | [] => [option]
  | first :: rest =>
    if first < option then first :: insertOption option rest
    else if first = option then first :: rest
    else option :: first :: rest

/-- The options of a list, ascending, each once. -/
def optionSet (options : List String) : List String :=
  options.foldl (fun known option => insertOption option known) []

namespace FieldDescriptor

/-- One argument read as a value of the field; an enumeration admits its choices only. -/
def argument (d : FieldDescriptor) (text : String) : Except ConditionError Value :=
  match Value.ofArgument? d.valueType text with
  | some value =>
    if d.valueType = .enum ∧ d.allowsChoice text = false then
      .error (.argumentType d.name d.valueType text)
    else .ok value
  | none => .error (.argumentType d.name d.valueType text)

/-- Arguments read as options of a selection, each of them one of the choices. -/
def optionArguments (d : FieldDescriptor) : List String → Except ConditionError (List String)
  | [] => .ok []
  | text :: rest =>
    if d.allowsChoice text then (d.optionArguments rest).map (text :: ·)
    else .error (.argumentType d.name d.valueType text)

/-- The comparison of a selection, by the set of its arguments. -/
def selectionComparison (d : FieldDescriptor) (make : List String → Comparison)
    (arguments : List String) : Except ConditionError Comparison :=
  (d.optionArguments arguments).map fun options => make (optionSet options)

/-- The comparison of a method with arguments of the right number. -/
def comparisonOf (d : FieldDescriptor) (method : ComparisonMethod) (arguments : List String) :
    Except ConditionError Comparison :=
  match method, d.valueType, arguments with
  | .equals, .list, options => d.selectionComparison .within options
  | .notEquals, .list, options => d.selectionComparison .notWithin options
  | .contains, .list, options => d.selectionComparison .intersects options
  | .equals, _, [text] => (d.argument text).map .equals
  | .notEquals, _, [text] => (d.argument text).map .notEquals
  | .contains, _, [text] => .ok (.substring text)
  | .range, _, [low, high] => do
    let least ← d.argument low
    let greatest ← d.argument high
    .ok (.range least greatest)
  | .greaterThan, _, [text] => (d.argument text).map .greaterThan
  | .lessThan, _, [text] => (d.argument text).map .lessThan
  | _, type, _ => .error (.argumentCount method (method.arity type) arguments.length)

/-- The comparison of a field by a method with arguments. -/
def comparison (d : FieldDescriptor) (method : ComparisonMethod) (arguments : List String) :
    Except ConditionError Comparison :=
  if method.supports d.valueType = false then
    .error (.unsupportedComparison d.name method d.valueType)
  else if (method.arity d.valueType).accepts arguments.length = false then
    .error (.argumentCount method (method.arity d.valueType) arguments.length)
  else d.comparisonOf method arguments

end FieldDescriptor

namespace Comparison

/-- Whether something is selected and all of it is in a set. -/
def isWithin (value : Value) (options : List String) : Bool :=
  !value.options.isEmpty && value.options.all options.contains

/-- Whether a present value satisfies the comparison. -/
def holdsFor (value : Value) : Comparison → Bool
  | equals expected => value.equal expected
  | notEquals expected => !value.equal expected
  | within options => isWithin value options
  | notWithin options => !isWithin value options
  | substring needle =>
    match value with
    | .string text => Text.contains text needle
    | _ => false
  | intersects options => value.options.any options.contains
  | range low high =>
    ((value.compare? low).any fun order => order != .lt)
      && ((value.compare? high).any fun order => order != .gt)
  | greaterThan bound => value.compare? bound == some .gt
  | lessThan bound => value.compare? bound == some .lt

/-- Whether a missing value satisfies the comparison. -/
def holdsForMissing : Comparison → Bool
  | notEquals _ => true
  | notWithin _ => true
  | _ => false

/-- Whether a value, which may be missing, satisfies the comparison. -/
def holds (comparison : Comparison) : Option Value → Bool
  | some value => comparison.holdsFor value
  | none => comparison.holdsForMissing

end Comparison

/-- Whether a value of a field satisfies a method with arguments. -/
def FieldDescriptor.evaluate (d : FieldDescriptor) (method : ComparisonMethod)
    (arguments : List String) (value : Option Value) : Except ConditionError Bool :=
  (d.comparison method arguments).map fun comparison => comparison.holds value

end Beneficiary
