import Inventory.Schema.FieldType
import Inventory.Text.Case
import Inventory.Text.Charset
import Inventory.Text.Utf8
import Inventory.Value
import Inventory.Yaml.Fault

/-!
Everything that can go wrong, by cause. A fault has a kind, which callers tell apart, a message,
details for programs, and notes on where it arose. A fault that shows a whole number too long to
be written gives way to `Fault.unwritable`: see `Fault.about`.
-/
namespace Inventory

/-- The kinds of faults. Those of the inventory itself have a code. -/
inductive FaultKind where
  | general
  | validation
  | emptySchema
  | invalidName
  | duplicateField
  | duplicateCategory
  | categoryNotEmpty
  | duplicateKey
  | unknownField
  | typeMismatch
  | negativeQuantity
  | insufficientQuantity
  | unsupportedOperator
  | notFound
  | categoryNotFound
  | entryNotFound
  | storage
  | storageUnavailable
  | storageCorrupt
  | corruptEntry
  | schemaDrift
  | template
  | templateNotFound
  | corruptTemplate
  | unboundPlaceholder
  | badValue
  | badOperand
  | beyondRange
  | importFormat
  | config
  | noHome
  | cellLimit
  | notUtf8
  | isDirectory
  | fileExists
  | notDirectory
  | system
  | lookup
  | badText
  | noSuchName
  | outOfBounds
  | noSuchPart
  deriving DecidableEq, Repr

namespace FaultKind

def all : List FaultKind :=
  [.general, .validation, .emptySchema, .invalidName, .duplicateField, .duplicateCategory,
   .categoryNotEmpty, .duplicateKey, .unknownField, .typeMismatch, .negativeQuantity,
   .insufficientQuantity, .unsupportedOperator, .notFound, .categoryNotFound, .entryNotFound,
   .storage, .storageUnavailable, .storageCorrupt, .corruptEntry, .schemaDrift, .template,
   .templateNotFound, .corruptTemplate, .unboundPlaceholder, .badValue, .badOperand, .beyondRange,
   .importFormat, .config, .noHome, .cellLimit, .notUtf8, .isDirectory, .fileExists, .notDirectory,
   .system, .lookup, .badText, .noSuchName, .outOfBounds, .noSuchPart]

/-- The stable identifier of a kind of the inventory's own. -/
def code? : FaultKind → Option String
  | .general => some "PINV_ERROR"
  | .validation => some "VALIDATION_ERROR"
  | .emptySchema => some "EMPTY_SCHEMA"
  | .invalidName => some "INVALID_FIELD_NAME"
  | .duplicateField => some "DUPLICATE_FIELD"
  | .duplicateCategory => some "DUPLICATE_CATAGORY"
  | .categoryNotEmpty => some "CATAGORY_NOT_EMPTY"
  | .duplicateKey => some "DUPLICATE_KEY"
  | .unknownField => some "UNKNOWN_FIELD"
  | .typeMismatch => some "TYPE_MISMATCH"
  | .negativeQuantity => some "NEGATIVE_QUANTITY"
  | .insufficientQuantity => some "INSUFFICIENT_QUANTITY"
  | .unsupportedOperator => some "UNSUPPORTED_OPERATOR"
  | .notFound => some "NOT_FOUND"
  | .categoryNotFound => some "CATAGORY_NOT_FOUND"
  | .entryNotFound => some "ENTRY_NOT_FOUND"
  | .storage => some "STORAGE_ERROR"
  | .storageUnavailable => some "STORAGE_UNAVAILABLE"
  | .storageCorrupt => some "STORAGE_CORRUPT"
  | .corruptEntry => some "CORRUPT_ENTRY"
  | .schemaDrift => some "SCHEMA_DRIFT"
  | .template => some "TEMPLATE_ERROR"
  | .templateNotFound => some "TEMPLATE_NOT_FOUND"
  | .corruptTemplate => some "CORRUPT_TEMPLATE"
  | .unboundPlaceholder => some "UNBOUND_PLACEHOLDER"
  | _ => none

/-- The fault is one of the inventory itself, and not of a number, a file or the system. -/
def isOwn (k : FaultKind) : Bool :=
  k.code?.isSome

/-- The database itself failed. -/
def isStorage (k : FaultKind) : Bool :=
  k ∈ [.storage, .storageUnavailable, .storageCorrupt, .corruptEntry, .schemaDrift]

end FaultKind

inductive Fault where
  -- schemas
  | emptySchema (category : Value)
  | badName (name : Value) (what : String)
  | reservedName (name what : String)
  | repeatedField (field category : String)
  | duplicateCategory (category : String)
  | duplicateField (category field : String)
  | categoryNotEmpty (category : String) (entries : Nat)
  | categoryNotFound (category : String)
  | unknownFieldType (code : String)
  | badFieldDefinition (text : String)
  -- values
  | notOfType (raw : String) (type : FieldType)
  | notFiniteText (raw : String)
  | notFinite (x : Binary64)
  | outOfRange (n : Int)
  | wrongKind (value : Value) (type : FieldType)
  | controlCharacter (what : String) (c : Char) (value : String)
  | numeralTooLong (digits : Nat)
  | unwritable
  | beyondReals
  | beyondStorage
  | inField (field : String) (cause : Fault)
  -- entries
  | blankKey (key : Value)
  | locationNotText (location : Value)
  | quantityNotWhole (quantity : Value)
  | negativeQuantity (quantity : Int)
  | quantityOverflow (key : String) (quantity : Value) (delta : Int)
  | insufficientQuantity (key : String) (quantity : Value) (delta : Int)
  | missingChange (key : String)
  | textQuantity
  | duplicateKey (key : String)
  | entryNotFound (key : String)
  | unknownField (category field : String)
  | immutable (key field : String)
  -- damaged rows
  | unreadableFields (key : String)
  | fieldsNotMapping (key : String)
  | missingCategory (key category : String)
  | undeclaredFields (key category : String) (fields : List String)
  | badStoredValue (key field : String) (value : Value) (type : FieldType)
  | badStoredQuantity (key : String) (quantity : Value)
  | unreadableFieldType (category code : String)
  -- the database
  | unavailable (message : String)
  | corrupt (message : String)
  -- constraints
  | unknownOperator (text : String)
  | badConstraint (text : String)
  | unfitOperator (symbol : String) (field : String) (type : FieldType)
  | operandMissing (symbol : String) (field : String)
  -- keys
  | negativeKeyNumber (n : Int)
  | emptyKey
  | badKeySymbol (symbol : Char) (key : String)
  -- templates
  | templateNotFound (source : String) (builtin : List String)
  | templateNotGzip (name : String)
  | templateNotUtf8 (name : String)
  | templateNotXml (name : String)
  | unboundPlaceholders (template : String) (names : List String)
  | notEnoughKeys (template : String) (slots : Nat)
  | charset (fault : Text.CharsetFault)
  -- label outputs
  | outputNotSvg (output : String)
  | outputOutside (output base : String)
  -- import files
  | importEmpty (file : String)
  | importNoColumns (file : String)
  | importColumnsMissing (file : String) (columns : List String)
  | importCellCount (file : String) (line expected found : Nat)
  | importQuantity (file : String) (line : Nat)
  | importNegative (file : String) (line : Nat)
  | cellTooLong
  | notUtf8 (fault : Text.Utf8Fault)
  | importing (line : Nat) (key : String) (cause : Fault)
  -- configuration
  | configNotYaml (file : String)
  | badScalar (fault : Yaml.Fault)
  | configNotMapping (file : String)
  | sectionNotMapping (name : String) (shown : String)
  | settingNotPath (setting : String) (shown : String)
  | settingNotBool (setting : String) (shown : String)
  | noHome
  -- files
  | isDirectory
  | fileExists
  | notDirectory
  | nameTooLong
  | nullCharacter

namespace Fault

/-- The longest cell an import file may have. -/
def cellLimit : Nat := 131072

/-- A fault that shows a value, unless the value cannot be written. -/
def about (v : Value) (f : Fault) : Fault :=
  if v.isWritable then f else .unwritable

/-- The kind of a fault in a settings file. -/
def ofYaml : Yaml.Fault → FaultKind
  | .malformed => .config
  | .notWhole .. | .tooManyDigits _ | .notReal _ | .calendar _ => .badValue
  | .beyondReals => .beyondRange
  | .notTruth _ => .noSuchName
  | .noDigits => .outOfBounds
  | .notDate => .noSuchPart
  | .dateMapping => .badOperand
  | .noCharacter code => if code < Yaml.Fault.codeLimit then .badValue else .beyondRange

/-- The kind of a fault of a charset. -/
def ofCharset : Text.CharsetFault → FaultKind
  | .unknown _ | .noText _ => .lookup
  | .multibyte => .badValue
  | .failing .. => .badText
  | .undecodable => .notUtf8

def kind : Fault → FaultKind
  | emptySchema _ => .emptySchema
  | badName .. | reservedName .. | repeatedField .. => .invalidName
  | duplicateCategory _ => .duplicateCategory
  | duplicateField .. => .duplicateField
  | categoryNotEmpty .. => .categoryNotEmpty
  | categoryNotFound _ => .categoryNotFound
  | unknownFieldType _ | badFieldDefinition _ => .badValue
  | notOfType .. | notFiniteText _ | notFinite _ | outOfRange _ | wrongKind .. => .typeMismatch
  | controlCharacter .. | inField .. => .typeMismatch
  | numeralTooLong _ | unwritable => .badValue
  | beyondReals | beyondStorage => .beyondRange
  | blankKey _ | immutable .. => .validation
  | locationNotText _ | quantityNotWhole _ | quantityOverflow .. | missingChange _ => .typeMismatch
  | negativeQuantity _ => .negativeQuantity
  | insufficientQuantity .. => .insufficientQuantity
  | textQuantity => .badOperand
  | duplicateKey _ => .duplicateKey
  | entryNotFound _ => .entryNotFound
  | unknownField .. => .unknownField
  | unreadableFields _ | fieldsNotMapping _ | missingCategory .. => .corruptEntry
  | badStoredValue .. | badStoredQuantity .. => .corruptEntry
  | undeclaredFields .. => .schemaDrift
  | unreadableFieldType .. | corrupt _ => .storageCorrupt
  | unavailable _ => .storageUnavailable
  | unknownOperator _ | badConstraint _ => .unsupportedOperator
  | unfitOperator .. | operandMissing .. => .unsupportedOperator
  | negativeKeyNumber _ | emptyKey | badKeySymbol .. | notEnoughKeys .. => .badValue
  | templateNotFound .. => .templateNotFound
  | templateNotGzip _ | templateNotUtf8 _ | templateNotXml _ => .corruptTemplate
  | unboundPlaceholders .. => .unboundPlaceholder
  | charset fault => ofCharset fault
  | outputNotSvg _ | outputOutside .. => .validation
  | importEmpty _ | importNoColumns _ | importColumnsMissing .. => .importFormat
  | importCellCount .. | importQuantity .. | importNegative .. => .importFormat
  | cellTooLong => .cellLimit
  | notUtf8 _ => .notUtf8
  | importing _ _ cause => cause.kind
  | configNotYaml _ | configNotMapping _ | sectionNotMapping .. => .config
  | settingNotPath .. | settingNotBool .. => .config
  | badScalar fault => ofYaml fault
  | noHome => .noHome
  | isDirectory => .isDirectory
  | fileExists => .fileExists
  | notDirectory => .notDirectory
  | nameTooLong => .system
  | nullCharacter => .badValue

def message : Fault → String
  | emptySchema category => s!"Catagory '{category.shown}' must declare at least one field"
  | badName name what =>
    s!"'{name.shown}' is not a valid {what}: use letters, digits and underscores, " ++
      "not starting with a digit"
  | reservedName name what => s!"'{name}' is a reserved name and cannot be used as a {what}"
  | repeatedField field category => s!"Field '{field}' is declared more than once in '{category}'"
  | duplicateCategory category => s!"Catagory '{category}' already exists"
  | duplicateField category field => s!"Catagory '{category}' already has a field '{field}'"
  | categoryNotEmpty category entries => s!"Catagory '{category}' still holds {entries} entries"
  | categoryNotFound category => s!"Catagory '{category}' not found"
  | unknownFieldType code =>
    s!"Invalid field type '{code}'. Valid types: " ++
      (Value.list (FieldType.all.map fun t => .text t.code)).display
  | badFieldDefinition text => s!"Invalid field definition '{text}' (expected name:t|i|r)"
  | notOfType raw type => s!"'{raw}' is not a valid {type.word}"
  | notFiniteText raw => s!"'{raw}' is not a finite real"
  | notFinite x => s!"{x.display} is not a finite real"
  | outOfRange n => s!"{n} is outside the 64-bit integer range"
  | wrongKind (.bool b) type => s!"boolean {(Value.bool b).display} is not a {type.word}"
  | wrongKind v type => s!"{v.display} ({v.kindName}) is not a {type.word}"
  | controlCharacter what c _ =>
    s!"{Text.capitalize what} contains the control character {Text.quoted (String.singleton c)}"
  | numeralTooLong digits => Numeral.tooLongMessage digits
  | unwritable =>
    s!"Exceeds the limit ({Numeral.digitLimit} digits) for integer string conversion; " ++
      "use sys.set_int_max_str_digits() to increase the limit"
  | beyondReals => "int too large to convert to float"
  | beyondStorage => "Python int too large to convert to SQLite INTEGER"
  | inField field cause => s!"Field '{field}': {cause.message}"
  | blankKey _ => "Entry key must be a non-empty string"
  | locationNotText location => s!"Location must be text, got {location.kindName}"
  | quantityNotWhole quantity => s!"Quantity must be an integer, got {quantity.display}"
  | negativeQuantity quantity => s!"Quantity cannot be negative ({quantity})"
  | quantityOverflow key quantity delta =>
    s!"Quantity of '{key}' out of range: {quantity.shown} + {delta}"
  | insufficientQuantity key quantity delta =>
    s!"Cannot take {-delta} from '{key}': only {quantity.shown} left"
  | missingChange _ => "Quantity change must be an integer"
  | textQuantity => "can only concatenate str (not \"int\") to str"
  | duplicateKey key => s!"Key '{key}' is already in use"
  | entryNotFound key => s!"No entry with key '{key}'"
  | unknownField category field => s!"Catagory '{category}' has no field '{field}'"
  | immutable _ field => s!"'{field}' cannot be modified"
  | unreadableFields key => s!"Entry '{key}' has unreadable field data"
  | fieldsNotMapping key => s!"Entry '{key}' field data is not a mapping"
  | missingCategory key category => s!"Entry '{key}' references missing catagory '{category}'"
  | undeclaredFields key category fields =>
    s!"Entry '{key}' stores fields not declared by '{category}': " ++
      ", ".intercalate (fields.mergeSort (· ≤ ·))
  | badStoredValue key field value type =>
    s!"Entry '{key}' field '{field}' holds {value.display}, expected {type.word}"
  | badStoredQuantity key quantity =>
    s!"Entry '{key}' has an invalid quantity {quantity.display}"
  | unreadableFieldType category code =>
    s!"Catagory '{category}' has an unreadable field definition: " ++
      s!"{Text.quoted code} is not a valid FieldType"
  | unavailable text => s!"Database error: {text}"
  | corrupt text => s!"Database is corrupt: {text}"
  | unknownOperator text => s!"Unknown operator '{text}'"
  | badConstraint text =>
    s!"Invalid constraint '{text}' (expected field<op>value, op one of = != < <= > >= ~)"
  | unfitOperator symbol field type =>
    s!"'{symbol}' cannot be used on {type.word} field '{field}'"
  | operandMissing symbol field => s!"'{symbol}' needs a value to compare '{field}' against"
  | negativeKeyNumber n => s!"Key numbers must be non-negative, got {n}"
  | emptyKey => "Key is empty"
  | badKeySymbol symbol key => s!"Invalid key symbol '{symbol}' in '{key}'"
  | templateNotFound source _ => s!"Template '{source}' not found"
  | templateNotGzip name => s!"Template '{name}' is not valid gzip data"
  | templateNotUtf8 name => s!"Template '{name}' is not UTF-8 text"
  | templateNotXml name => s!"Template '{name}' is not well-formed XML"
  | unboundPlaceholders template names =>
    s!"Template '{template}' uses unbound placeholders: " ++ ", ".intercalate names
  | charset fault => fault.message
  | notEnoughKeys template slots => s!"Not enough keys for template '{template}' ({slots} slots)"
  | outputNotSvg output => s!"Label output '{output}' must be an .svg file"
  | outputOutside output base =>
    s!"Label output '{output}' resolves outside '{base}'. Path traversal is not permitted."
  | importEmpty file => s!"'{file}' is empty (expected a catagory row)"
  | importNoColumns file => s!"'{file}' is missing the column row"
  | importColumnsMissing file columns =>
    s!"'{file}' is missing required columns: " ++ ", ".intercalate columns
  | importCellCount file line expected found =>
    s!"'{file}' line {line}: expected {expected} cells, got {found}"
  | importQuantity file line => s!"'{file}' line {line}: quantity is not an integer"
  | importNegative file line => s!"'{file}' line {line}: quantity cannot be negative"
  | cellTooLong => s!"field larger than field limit ({cellLimit})"
  | notUtf8 fault => fault.message
  | importing _ _ cause => cause.message
  | configNotYaml file => s!"Config file '{file}' is not valid YAML"
  | badScalar fault => fault.message
  | configNotMapping file => s!"Config file '{file}' must contain a mapping at the top level"
  | sectionNotMapping name shown => s!"Config section '{name}' must be a mapping, got {shown}"
  | settingNotPath setting shown => s!"Config value '{setting}' must be a path, got {shown}"
  | settingNotBool setting shown => s!"Config value '{setting}' must be true or false, got {shown}"
  | noHome => "Could not determine home directory."
  | isDirectory => "Is a directory"
  | fileExists => "File exists"
  | notDirectory => "Not a directory"
  | nameTooLong => "File name too long"
  | nullCharacter => "embedded null byte"

/-- What a program may want to know beside the message. -/
def details : Fault → Mapping Value
  | emptySchema category => [("catagory", category)]
  | badName name _ => [("name", name)]
  | reservedName name _ => [("name", .text name)]
  | repeatedField field category => [("name", .text field), ("catagory", .text category)]
  | duplicateCategory category | categoryNotFound category => [("catagory", .text category)]
  | duplicateField category field | unknownField category field =>
    [("catagory", .text category), ("field", .text field)]
  | categoryNotEmpty category entries =>
    [("catagory", .text category), ("entries", .int entries)]
  | notOfType raw type => [("value", .text raw), ("type", .text type.label)]
  | notFiniteText raw => [("value", .text raw), ("type", .text FieldType.real.label)]
  | notFinite x => [("value", .real x), ("type", .text FieldType.real.label)]
  | outOfRange n => [("value", .int n), ("type", .text FieldType.integer.label)]
  | wrongKind value type => [("value", value), ("type", .text type.label)]
  | controlCharacter _ _ value => [("value", .text value), ("type", .text FieldType.text.label)]
  | inField field cause => ("field", .text field) :: cause.details
  | blankKey key => [("key", key)]
  | locationNotText location => [("value", location)]
  | quantityNotWhole quantity => [("value", quantity)]
  | negativeQuantity quantity => [("quantity", .int quantity)]
  | quantityOverflow key quantity delta | insufficientQuantity key quantity delta =>
    [("key", .text key), ("quantity", quantity), ("delta", .int delta)]
  | missingChange key | duplicateKey key | entryNotFound key => [("key", .text key)]
  | immutable key field => [("key", .text key), ("field", .text field)]
  | unreadableFields key | fieldsNotMapping key | missingCategory key _ => [("key", .text key)]
  | undeclaredFields key _ fields =>
    [("key", .text key), ("fields", .list (fields.map .text))]
  | badStoredValue key field _ _ => [("key", .text key), ("field", .text field)]
  | badStoredQuantity key _ => [("key", .text key)]
  | unknownOperator text => [("operator", .text text)]
  | badConstraint text => [("expression", .text text)]
  | unfitOperator symbol field _ | operandMissing symbol field =>
    [("field", .text field), ("operator", .text symbol)]
  | templateNotFound source builtin =>
    [("source", .text source), ("builtin", .list (builtin.map .text))]
  | templateNotGzip name | templateNotUtf8 name | templateNotXml name => [("source", .text name)]
  | unboundPlaceholders template names =>
    [("template", .text template), ("placeholders", .list (names.map .text))]
  | outputNotSvg output => [("output", .text output)]
  | outputOutside output base => [("output", .text output), ("base", .text base)]
  | importing _ _ cause => cause.details
  | _ => []

/-- Where the fault arose, if it is known. -/
def notes : Fault → List String
  | importing line key cause => cause.notes ++ [s!"while importing line {line} (key '{key}')"]
  | _ => []

end Fault

/-- A fault as it is reported: its kind, its message and its details. -/
structure Report where
  kind : FaultKind
  message : String
  details : Mapping Value

def Fault.report (f : Fault) : Report :=
  ⟨f.kind, f.message, f.details⟩

end Inventory
