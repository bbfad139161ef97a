/-
The kinds of things that a template can reach.

A template goes from an argument to its parts.  The parts of a value are named by its
kind: methods and slots, which only stand for themselves, and attributes.  A kind has
what its ancestors have.

Main definitions:
* `Kind`, `Kind.name`, `Kind.ancestors`;
* `Kind.Role`, `Kind.owner?` — what a part is for, and the ancestor that it comes from;
* `Kind.about?` — the text that describes a kind.
-/
import BuildDesk.Json.Basic

namespace BuildDesk

/-- Kinds of things: of values, of kinds, and of the parts of both. -/
inductive Kind
  | none
  | bool
  | int
  | float
  | text
  | list
  | record
  | thing
  | kind
  | tuple
  | method
  | wrapper
  | methodOfKind
  | slotOfKind
  | attributeOfKind
  deriving DecidableEq, Repr

namespace Kind

/-- The kind of a value. -/
def ofJson : Json → Kind
  | .null => none
  | .bool _ => bool
  | .int _ => int
  | .float _ => float
  | .str _ => text
  | .list _ => list
  | .object _ => record

/-- The name of a kind. -/
def name : Kind → String
  | none => "NoneType"
  | bool => "bool"
  | int => "int"
  | float => "float"
  | text => "str"
  | list => "list"
  | record => "dict"
  | thing => "object"
  | kind => "type"
  | tuple => "tuple"
  | method => "builtin_function_or_method"
  | wrapper => "method-wrapper"
  | methodOfKind => "method_descriptor"
  | slotOfKind => "wrapper_descriptor"
  | attributeOfKind => "getset_descriptor"

/-- The kind that a kind is a special case of. -/
def base? : Kind → Option Kind
  | thing => Option.none
  | bool => some int
  | _ => some thing

/-- A kind and all that it is a special case of, the closest first. -/
def ancestors : Kind → List Kind
  | thing => [thing]
  | bool => [bool, int, thing]
  | k => [k, thing]

/-- What a part of a kind is for. -/
inductive Role
  | method
  | slot
  | attribute
  /-- A method of the kind itself. -/
  | shared
  deriving DecidableEq, Repr

/-- The names of the parts that a kind has of its own, with blanks between them. -/
structure Parts where
  methods : String := ""
  slots : String := ""
  attributes : String := ""
  shared : String := ""

/-- The parts that a kind has of its own. -/
def parts : Kind → Parts
  | .none => {
    slots := "__bool__ __repr__"
    shared := "__new__" }
  | .bool => {
    slots := "__and__ __or__ __rand__ __repr__ __ror__ __rxor__ __xor__"
    shared := "__new__" }
  | .int => {
    methods := "__ceil__ __floor__ __format__ __getnewargs__ __round__ __sizeof__ __trunc__ "
      ++ "as_integer_ratio bit_count bit_length conjugate to_bytes"
    slots := "__abs__ __add__ __and__ __bool__ __divmod__ __eq__ __float__ __floordiv__ __ge__ "
      ++ "__getattribute__ __gt__ __hash__ __index__ __int__ __invert__ __le__ __lshift__ "
      ++ "__lt__ __mod__ __mul__ __ne__ __neg__ __or__ __pos__ __pow__ __radd__ __rand__ "
      ++ "__rdivmod__ __repr__ __rfloordiv__ __rlshift__ __rmod__ __rmul__ __ror__ __rpow__ "
      ++ "__rrshift__ __rshift__ __rsub__ __rtruediv__ __rxor__ __sub__ __truediv__ __xor__"
    attributes := "denominator imag numerator real"
    shared := "__new__ from_bytes" }
  | .float => {
    methods := "__ceil__ __floor__ __format__ __getnewargs__ __round__ __trunc__ as_integer_ratio "
      ++ "conjugate hex is_integer"
    slots := "__abs__ __add__ __bool__ __divmod__ __eq__ __float__ __floordiv__ __ge__ "
      ++ "__getattribute__ __gt__ __hash__ __int__ __le__ __lt__ __mod__ __mul__ __ne__ "
      ++ "__neg__ __pos__ __pow__ __radd__ __rdivmod__ __repr__ __rfloordiv__ __rmod__ "
      ++ "__rmul__ __rpow__ __rsub__ __rtruediv__ __sub__ __truediv__"
    attributes := "imag real"
    shared := "__getformat__ __new__ fromhex" }
  | .text => {
    methods := "__format__ __getnewargs__ __sizeof__ capitalize casefold center count encode "
      ++ "endswith expandtabs find format format_map index isalnum isalpha isascii isdecimal "
      ++ "isdigit isidentifier islower isnumeric isprintable isspace istitle isupper join "
      ++ "ljust lower lstrip partition removeprefix removesuffix replace rfind rindex rjust "
      ++ "rpartition rsplit rstrip split splitlines startswith strip swapcase title translate "
      ++ "upper zfill"
    slots := "__add__ __contains__ __eq__ __ge__ __getattribute__ __getitem__ __gt__ __hash__ "
      ++ "__iter__ __le__ __len__ __lt__ __mod__ __mul__ __ne__ __repr__ __rmod__ __rmul__ "
      ++ "__str__"
    shared := "__new__ maketrans" }
  | .list => {
    methods := "__getitem__ __reversed__ __sizeof__ append clear copy count extend index insert pop "
      ++ "remove reverse sort"
    slots := "__add__ __contains__ __delitem__ __eq__ __ge__ __getattribute__ __gt__ __iadd__ "
      ++ "__imul__ __init__ __iter__ __le__ __len__ __lt__ __mul__ __ne__ __repr__ __rmul__ "
      ++ "__setitem__"
    shared := "__class_getitem__ __new__" }
  | .record => {
    methods := "__contains__ __getitem__ __reversed__ __sizeof__ clear copy get items keys pop "
      ++ "popitem setdefault update values"
    slots := "__delitem__ __eq__ __ge__ __getattribute__ __gt__ __init__ __ior__ __iter__ __le__ "
      ++ "__len__ __lt__ __ne__ __or__ __repr__ __ror__ __setitem__"
    shared := "__class_getitem__ __new__ fromkeys" }
  | .thing => {
    methods := "__dir__ __format__ __getstate__ __reduce__ __reduce_ex__ __sizeof__"
    slots := "__delattr__ __eq__ __ge__ __getattribute__ __gt__ __hash__ __init__ __le__ __lt__ "
      ++ "__ne__ __repr__ __setattr__ __str__"
    shared := "__init_subclass__ __new__ __subclasshook__" }
  | .kind => {
    methods := "__dir__ __instancecheck__ __sizeof__ __subclasscheck__ __subclasses__ mro"
    slots := "__call__ __delattr__ __getattribute__ __init__ __or__ __repr__ __ror__ __setattr__"
    shared := "__new__ __prepare__" }
  | .tuple => {
    methods := "__getnewargs__ count index"
    slots := "__add__ __contains__ __eq__ __ge__ __getattribute__ __getitem__ __gt__ __hash__ "
      ++ "__iter__ __le__ __len__ __lt__ __mul__ __ne__ __repr__ __rmul__"
    shared := "__class_getitem__ __new__" }
  | _ => {}

/-- A name is among names with blanks between them. -/
def isAmong (name names : String) : Bool := (names.splitOn " ").contains name

/-- The role of a part that a kind has of its own. -/
def role? (k : Kind) (name : String) : Option Role :=
  let own := k.parts
  if isAmong name own.methods then some .method
  else if isAmong name own.slots then some .slot
  else if isAmong name own.attributes then some .attribute
  else if isAmong name own.shared then some .shared
  else Option.none

/-- The closest ancestor that has a part of its own, and the role of the part. -/
def owner? (k : Kind) (name : String) : Option (Kind × Role) :=
  k.ancestors.findSome? fun a => (a.role? name).map fun role => (a, role)

/-- The text that describes a kind. -/
def about? : Kind → Option String
  | .bool => some ("bool(x) -> bool\n\nReturns True when the argument x is true, False otherwise.\n"
      ++ "The builtins True and False are the only two instances of the class bool.\n"
      ++ "The class bool is a subclass of the class int, and cannot be subclassed.")
  | .int => some ("int([x]) -> integer\nint(x, base=10) -> integer\n\n"
      ++ "Convert a number or string to an integer, or return 0 if no arguments\n"
      ++ "are given.  If x is a number, return x.__int__().  For floating point\n"
      ++ "numbers, this truncates towards zero.\n\n"
      ++ "If x is not a number or if base is given, then x must be a string,\n"
      ++ "bytes, or bytearray instance representing an integer literal in the\n"
      ++ "given base.  The literal can be preceded by '+' or '-' and be surrounded\n"
      ++ "by whitespace.  The base defaults to 10.  Valid bases are 0 and 2-36.\n"
      ++ "Base 0 means to interpret the base from the string as an integer literal.\n"
      ++ ">>> int('0b100', base=0)\n4")
  | .float => some ("Convert a string or number to a floating point number, if possible.")
  | .text => some ("str(object='') -> str\nstr(bytes_or_buffer[, encoding[, errors]]) -> str\n\n"
      ++ "Create a new string object from the given object. If encoding or\n"
      ++ "errors is specified, then the object must expose a data buffer\n"
      ++ "that will be decoded using the given encoding and error handler.\n"
      ++ "Otherwise, returns the result of object.__str__() (if defined)\nor repr(object).\n"
      ++ "encoding defaults to sys.getdefaultencoding().\nerrors defaults to 'strict'.")
  | .list => some ("Built-in mutable sequence.\n\n"
      ++ "If no argument is given, the constructor creates a new empty list.\n"
      ++ "The argument must be an iterable if specified.")
  | .record => some ("dict() -> new empty dictionary\n"
      ++ "dict(mapping) -> new dictionary initialized from a mapping object's\n"
      ++ "    (key, value) pairs\ndict(iterable) -> new dictionary initialized as if via:\n"
      ++ "    d = \x7b\x7d\n    for k, v in iterable:\n        d[k] = v\n"
      ++ "dict(**kwargs) -> new dictionary initialized with the name=value pairs\n"
      ++ "    in the keyword argument list.  For example:  dict(one=1, two=2)")
  | .thing => some ("The base class of the class hierarchy.\n\n"
      ++ "When called, it accepts no arguments and returns a new featureless\n"
      ++ "instance that has no instance attributes and cannot be given any.\n")
  | .kind => some ("type(object) -> the object's type\ntype(name, bases, dict, **kwds) -> a new type")
  | .tuple => some ("Built-in immutable sequence.\n\n"
      ++ "If no argument is given, the constructor returns an empty tuple.\n"
      ++ "If iterable is specified the tuple is initialized from iterable's items.\n\n"
      ++ "If the argument is a tuple, the return value is the same object.")
  | _ => Option.none

end Kind
end BuildDesk
