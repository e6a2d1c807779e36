import Toolwright.Value.Kind

/-!
# Features of kinds

What the values of each kind offer: fields that are computed from a value, operations on a value,
operations on a class, and operations that are bound to nothing.
-/

namespace Toolwright.Kind

set_option autoImplicit false

/-- The fields that are computed from a value of a kind. -/
def fields : Kind → List String
  | .object => ["__class__"]
  | .type =>
    ["__abstractmethods__", "__annotations__", "__base__", "__bases__", "__basicsize__",
      "__dict__", "__dictoffset__", "__doc__", "__flags__", "__itemsize__", "__module__",
      "__mro__", "__name__", "__qualname__", "__text_signature__", "__weakrefoffset__"]
  | .int => ["denominator", "imag", "numerator", "real"]
  | .float => ["imag", "real"]
  | .mapping => ["__dict__", "__weakref__"]
  | .view _ => ["mapping"]
  | .mappingView _ => ["_mapping"]
  | .token => ["__dict__", "__weakref__"]
  | .mute => ["__dict__", "__weakref__"]
  | .function =>
    ["__annotations__", "__builtins__", "__closure__", "__code__", "__defaults__", "__dict__",
      "__doc__", "__globals__", "__kwdefaults__", "__module__", "__name__", "__qualname__"]
  | .method => ["__doc__", "__func__", "__self__"]
  | .operation =>
    ["__doc__", "__module__", "__name__", "__qualname__", "__self__", "__text_signature__"]
  | _ => []

def operations : Kind → List String
  | .object =>
    ["__delattr__", "__dir__", "__eq__", "__format__", "__ge__", "__getattribute__",
      "__getstate__", "__gt__", "__hash__", "__init__", "__le__", "__lt__", "__ne__",
      "__reduce__", "__reduce_ex__", "__repr__", "__setattr__", "__sizeof__", "__str__"]
  | .type =>
    ["__call__", "__delattr__", "__dir__", "__getattribute__", "__init__", "__instancecheck__",
      "__or__", "__repr__", "__ror__", "__setattr__", "__sizeof__", "__subclasscheck__",
      "__subclasses__", "mro"]
  | .null => ["__bool__", "__repr__"]
  | .bool => ["__and__", "__or__", "__rand__", "__repr__", "__ror__", "__rxor__", "__xor__"]
  | .int =>
    ["__abs__", "__add__", "__and__", "__bool__", "__ceil__", "__divmod__", "__eq__", "__float__",
      "__floor__", "__floordiv__", "__format__", "__ge__", "__getattribute__",
      "__getnewargs__", "__gt__", "__hash__", "__index__", "__int__", "__invert__", "__le__",
      "__lshift__", "__lt__", "__mod__", "__mul__", "__ne__", "__neg__", "__or__", "__pos__",
      "__pow__", "__radd__", "__rand__", "__rdivmod__", "__repr__", "__rfloordiv__",
      "__rlshift__", "__rmod__", "__rmul__", "__ror__", "__round__", "__rpow__",
      "__rrshift__", "__rshift__", "__rsub__", "__rtruediv__", "__rxor__", "__sizeof__",
      "__sub__", "__truediv__", "__trunc__", "__xor__", "as_integer_ratio", "bit_count",
      "bit_length", "conjugate", "to_bytes"]
  | .float =>
    ["__abs__", "__add__", "__bool__", "__ceil__", "__divmod__", "__eq__", "__float__",
      "__floor__", "__floordiv__", "__format__", "__ge__", "__getattribute__",
      "__getnewargs__", "__gt__", "__hash__", "__int__", "__le__", "__lt__", "__mod__",
      "__mul__", "__ne__", "__neg__", "__pos__", "__pow__", "__radd__", "__rdivmod__",
      "__repr__", "__rfloordiv__", "__rmod__", "__rmul__", "__round__", "__rpow__",
      "__rsub__", "__rtruediv__", "__sub__", "__truediv__", "__trunc__", "as_integer_ratio",
      "conjugate", "hex", "is_integer"]
  | .text =>
    ["__add__", "__contains__", "__eq__", "__format__", "__ge__", "__getattribute__",
      "__getitem__", "__getnewargs__", "__gt__", "__hash__", "__iter__", "__le__", "__len__",
      "__lt__", "__mod__", "__mul__", "__ne__", "__repr__", "__rmod__", "__rmul__",
      "__sizeof__", "__str__", "capitalize", "casefold", "center", "count", "encode",
      "endswith", "expandtabs", "find", "format", "format_map", "index", "isalnum", "isalpha",
      "isascii", "isdecimal", "isdigit", "isidentifier", "islower", "isnumeric",
      "isprintable", "isspace", "istitle", "isupper", "join", "ljust", "lower", "lstrip",
      "partition", "removeprefix", "removesuffix", "replace", "rfind", "rindex", "rjust",
      "rpartition", "rsplit", "rstrip", "split", "splitlines", "startswith", "strip",
      "swapcase", "title", "translate", "upper", "zfill"]
  | .bytes =>
    ["__add__", "__bytes__", "__contains__", "__eq__", "__ge__", "__getattribute__",
      "__getitem__", "__getnewargs__", "__gt__", "__hash__", "__iter__", "__le__", "__len__",
      "__lt__", "__mod__", "__mul__", "__ne__", "__repr__", "__rmod__", "__rmul__", "__str__",
      "capitalize", "center", "count", "decode", "endswith", "expandtabs", "find", "hex",
      "index", "isalnum", "isalpha", "isascii", "isdigit", "islower", "isspace", "istitle",
      "isupper", "join", "ljust", "lower", "lstrip", "partition", "removeprefix",
      "removesuffix", "replace", "rfind", "rindex", "rjust", "rpartition", "rsplit", "rstrip",
      "split", "splitlines", "startswith", "strip", "swapcase", "title", "translate", "upper",
      "zfill"]
  | .list =>
    ["__add__", "__contains__", "__delitem__", "__eq__", "__ge__", "__getattribute__",
      "__getitem__", "__gt__", "__iadd__", "__imul__", "__init__", "__iter__", "__le__",
      "__len__", "__lt__", "__mul__", "__ne__", "__repr__", "__reversed__", "__rmul__",
      "__setitem__", "__sizeof__", "append", "clear", "copy", "count", "extend", "index",
      "insert", "pop", "remove", "reverse", "sort"]
  | .tuple =>
    ["__add__", "__contains__", "__eq__", "__ge__", "__getattribute__", "__getitem__",
      "__getnewargs__", "__gt__", "__hash__", "__iter__", "__le__", "__len__", "__lt__",
      "__mul__", "__ne__", "__repr__", "__rmul__", "count", "index"]
  | .dict =>
    ["__contains__", "__delitem__", "__eq__", "__ge__", "__getattribute__", "__getitem__",
      "__gt__", "__init__", "__ior__", "__iter__", "__le__", "__len__", "__lt__", "__ne__",
      "__or__", "__repr__", "__reversed__", "__ror__", "__setitem__", "__sizeof__", "clear",
      "copy", "get", "items", "keys", "pop", "popitem", "setdefault", "update", "values"]
  | .set =>
    ["__and__", "__contains__", "__eq__", "__ge__", "__getattribute__", "__gt__", "__iand__",
      "__init__", "__ior__", "__isub__", "__iter__", "__ixor__", "__le__", "__len__",
      "__lt__", "__ne__", "__or__", "__rand__", "__reduce__", "__repr__", "__ror__",
      "__rsub__", "__rxor__", "__sizeof__", "__sub__", "__xor__", "add", "clear", "copy",
      "difference", "difference_update", "discard", "intersection", "intersection_update",
      "isdisjoint", "issubset", "issuperset", "pop", "remove", "symmetric_difference",
      "symmetric_difference_update", "union", "update"]
  | .frozenset =>
    ["__and__", "__contains__", "__eq__", "__ge__", "__getattribute__", "__gt__", "__hash__",
      "__iter__", "__le__", "__len__", "__lt__", "__ne__", "__or__", "__rand__", "__reduce__",
      "__repr__", "__ror__", "__rsub__", "__rxor__", "__sizeof__", "__sub__", "__xor__",
      "copy", "difference", "intersection", "isdisjoint", "issubset", "issuperset",
      "symmetric_difference", "union"]
  | .mapping =>
    ["__contains__", "__eq__", "__getitem__", "__init__", "__iter__", "__len__", "__repr__",
      "get", "items", "keys", "values"]
  | .proxy =>
    ["__contains__", "__eq__", "__ge__", "__getattribute__", "__getitem__", "__gt__", "__ior__",
      "__iter__", "__le__", "__len__", "__lt__", "__ne__", "__or__", "__repr__",
      "__reversed__", "__ror__", "__str__", "copy", "get", "items", "keys", "values"]
  | .view .values => ["__getattribute__", "__iter__", "__len__", "__repr__", "__reversed__"]
  | .view _ =>
    ["__and__", "__contains__", "__eq__", "__ge__", "__getattribute__", "__gt__", "__iter__",
      "__le__", "__len__", "__lt__", "__ne__", "__or__", "__rand__", "__repr__",
      "__reversed__", "__ror__", "__rsub__", "__rxor__", "__sub__", "__xor__", "isdisjoint"]
  | .mappingView .values => ["__contains__", "__init__", "__iter__", "__len__", "__repr__"]
  | .mappingView _ =>
    ["__and__", "__contains__", "__eq__", "__ge__", "__gt__", "__init__", "__iter__", "__le__",
      "__len__", "__lt__", "__or__", "__rand__", "__repr__", "__ror__", "__rsub__",
      "__rxor__", "__sub__", "__xor__", "isdisjoint"]
  | .iterator "generator" =>
    ["__getattribute__", "__iter__", "__next__", "__repr__", "close", "send", "throw"]
  | .iterator _ => ["__getattribute__", "__iter__", "__length_hint__", "__next__", "__reduce__"]
  | .token => ["__init__", "__repr__", "__str__"]
  | .mute => ["__init__", "__repr__", "__str__"]
  | .function => ["__call__", "__get__", "__repr__"]
  | .method =>
    ["__call__", "__delattr__", "__eq__", "__ge__", "__getattribute__", "__gt__", "__hash__",
      "__le__", "__lt__", "__ne__", "__reduce__", "__repr__", "__setattr__"]
  | .operation =>
    ["__call__", "__eq__", "__ge__", "__getattribute__", "__gt__", "__hash__", "__le__", "__lt__",
      "__ne__", "__reduce__", "__repr__"]

def classOperations : Kind → List String
  | .object => ["__init_subclass__", "__subclasshook__"]
  | .type => ["__prepare__"]
  | .int => ["from_bytes"]
  | .float => ["__getformat__", "fromhex"]
  | .bytes => ["fromhex"]
  | .list => ["__class_getitem__"]
  | .tuple => ["__class_getitem__"]
  | .dict => ["__class_getitem__", "fromkeys"]
  | .set => ["__class_getitem__"]
  | .frozenset => ["__class_getitem__"]
  | .mapping => ["__class_getitem__"]
  | .proxy => ["__class_getitem__"]
  | .mappingView _ => ["__class_getitem__"]
  | _ => []

def freeOperations : Kind → List String
  | .object => ["__new__"]
  | .type => ["__new__"]
  | .null => ["__new__"]
  | .bool => ["__new__"]
  | .int => ["__new__"]
  | .float => ["__new__"]
  | .text => ["__new__", "maketrans"]
  | .bytes => ["__new__", "maketrans"]
  | .list => ["__new__"]
  | .tuple => ["__new__"]
  | .dict => ["__new__"]
  | .set => ["__new__"]
  | .frozenset => ["__new__"]
  | .function => ["__new__"]
  | .method => ["__new__"]
  | _ => []

end Toolwright.Kind
