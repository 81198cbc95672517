/-
Reserved words of the dialects.

* `cplusWords`, `pythonWords`: the identifiers that generated programs must not use, sorted.
-/
namespace Blockscribe.Dialect

/-- Reserved words of the `cplus` dialect: its keywords. -/
def cplusWords : List String :=
  ["alignas", "alignof", "and", "and_eq", "asm", "atomic_cancel", "atomic_commit",
   "atomic_noexcept", "auto", "bitand", "bitor", "bool", "break", "case", "catch", "char",
   "char16_t", "char32_t", "class", "compl", "concept", "const", "const_cast", "constexpr",
   "continue", "decltype", "default", "delete", "do", "double", "dynamic_cast", "else", "enum",
   "explicit", "export", "extern", "false", "float", "for", "friend", "goto", "if", "import",
   "inline", "int", "long", "module", "mutable", "namespace", "new", "noexcept", "not", "not_eq",
   "nullptr", "operator", "or", "or_eq", "private", "protected", "public", "register",
   "reinterpret_cast", "requires", "return", "short", "signed", "sizeof", "static",
   "static_assert", "static_cast", "struct", "switch", "synchronized", "template", "this",
   "thread_local", "throw", "true", "try", "typedef", "typeid", "typename", "union", "unsigned",
   "using", "virtual", "void", "volatile", "wchar_t", "while", "xor", "xor_eq"]

/-- Reserved words of the `python` dialect: its keywords and the names that are always bound. -/
def pythonWords : List String :=
  ["ArithmeticError", "AssertionError", "AttributeError", "BaseException", "BaseExceptionGroup",
   "BlockingIOError", "BrokenPipeError", "BufferError", "BytesWarning", "ChildProcessError",
   "ConnectionAbortedError", "ConnectionError", "ConnectionRefusedError", "ConnectionResetError",
   "DeprecationWarning", "EOFError", "Ellipsis", "EncodingWarning", "EnvironmentError",
   "Exception", "ExceptionGroup", "False", "FileExistsError", "FileNotFoundError",
   "FloatingPointError", "FutureWarning", "GeneratorExit", "IOError", "ImportError",
   "ImportWarning", "IndentationError", "IndexError", "InterruptedError", "IsADirectoryError",
   "KeyError", "KeyboardInterrupt", "LookupError", "MemoryError", "ModuleNotFoundError",
   "NameError", "None", "NotADirectoryError", "NotImplemented", "NotImplementedError", "OSError",
   "OverflowError", "PendingDeprecationWarning", "PermissionError", "ProcessLookupError",
   "RecursionError", "ReferenceError", "ResourceWarning", "RuntimeError", "RuntimeWarning",
   "StopAsyncIteration", "StopIteration", "SyntaxError", "SyntaxWarning", "SystemError",
   "SystemExit", "TabError", "TimeoutError", "True", "TypeError", "UnboundLocalError",
   "UnicodeDecodeError", "UnicodeEncodeError", "UnicodeError", "UnicodeTranslateError",
   "UnicodeWarning", "UserWarning", "ValueError", "Warning", "ZeroDivisionError",
   "__build_class__", "__debug__", "__doc__", "__import__", "__loader__", "__name__",
   "__package__", "__spec__", "abs", "aiter", "all", "and", "anext", "any", "as", "ascii",
   "assert", "async", "await", "bin", "bool", "break", "breakpoint", "bytearray", "bytes",
   "callable", "chr", "class", "classmethod", "compile", "complex", "continue", "copyright",
   "credits", "def", "del", "delattr", "dict", "dir", "divmod", "elif", "else", "enumerate",
   "eval", "except", "exec", "exit", "filter", "finally", "float", "for", "format", "from",
   "frozenset", "getattr", "global", "globals", "hasattr", "hash", "help", "hex", "id", "if",
   "import", "in", "input", "int", "is", "isinstance", "issubclass", "iter", "lambda", "len",
   "license", "list", "locals", "map", "max", "memoryview", "min", "next", "nonlocal", "not",
   "object", "oct", "open", "or", "ord", "pass", "pow", "print", "property", "quit", "raise",
   "range", "repr", "return", "reversed", "round", "set", "setattr", "slice", "sorted",
   "staticmethod", "str", "sum", "super", "try", "tuple", "type", "vars", "while", "with",
   "yield", "zip"]

end Blockscribe.Dialect
