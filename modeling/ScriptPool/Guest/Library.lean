import ScriptPool.Guest.State

/-!
# The standard library

Which names a fresh guest state defines at each security level.  The strict level has the libraries
that only compute; the standard level adds the clock and the module loader, without what reaches the
process, its files or its environment; the minimal level leaves out only what could corrupt the
process.
-/

set_option autoImplicit false

namespace ScriptPool

/-- What a name of the library stands for. -/
inductive LibraryMember where
  | function
  | text (s : String)
  | bytes (data : List UInt8)
  | float (x : Float)
  | integer (n : Int64)
  /-- An empty table. -/
  | table
  /-- An open file. -/
  | file

/-- The global functions of every level. -/
def globalFunctions : List String :=
  ["assert", "collectgarbage", "dofile", "error", "getmetatable", "ipairs", "load", "loadfile",
    "next", "pairs", "pcall", "print", "rawequal", "rawget", "rawlen", "rawset", "select",
    "setmetatable", "tonumber", "tostring", "type", "warn", "xpcall"]

/-- Members that are all functions. -/
def allFunctions (names : List String) : List (String × LibraryMember) :=
  names.map fun name => (name, .function)

/-- The libraries that only compute. -/
def computingLibraries : List (String × List (String × LibraryMember)) :=
  [("string", allFunctions
      ["byte", "char", "dump", "find", "format", "gmatch", "gsub", "len", "lower", "match", "pack",
        "packsize", "rep", "reverse", "sub", "unpack", "upper"]),
    ("table", allFunctions ["concat", "insert", "move", "pack", "remove", "sort", "unpack"]),
    ("math", allFunctions
      ["abs", "acos", "asin", "atan", "atan2", "ceil", "cos", "cosh", "deg", "exp", "floor", "fmod",
        "frexp", "ldexp", "log", "log10", "max", "min", "modf", "pow", "rad", "random",
        "randomseed", "sin", "sinh", "sqrt", "tan", "tanh", "tointeger", "type", "ult"] ++
      [("huge", .float (1.0 / 0.0)), ("pi", .float 3.141592653589793),
        ("maxinteger", .integer Int64.maxValue), ("mininteger", .integer Int64.minValue)]),
    ("coroutine", allFunctions
      ["close", "create", "isyieldable", "resume", "running", "status", "wrap", "yield"]),
    ("utf8", allFunctions ["char", "codepoint", "codes", "len", "offset"] ++
      [("charpattern", .bytes
        [0x5b, 0x00, 0x2d, 0x7f, 0xc2, 0x2d, 0xfd, 0x5d, 0x5b, 0x80, 0x2d, 0xbf, 0x5d, 0x2a])])]

/-- Members of `os` that do not reach the process. -/
def harmlessSystemFunctions : List String := ["clock", "date", "difftime", "setlocale", "time"]

/-- The other members of `os`. -/
def processSystemFunctions : List String :=
  ["execute", "exit", "getenv", "remove", "rename", "tmpname"]

/-- The module loader. -/
def packageLibrary : List (String × LibraryMember) :=
  allFunctions ["loadlib", "searchpath"] ++
    [("config", .text "/\n;\n?\n!\n-\n"), ("cpath", .text ""), ("path", .text "./?.lua"),
      ("loaded", .table), ("preload", .table), ("searchers", .table)]

/-- Files. -/
def fileLibrary : List (String × LibraryMember) :=
  allFunctions
    ["close", "flush", "input", "lines", "open", "output", "popen", "read", "tmpfile", "type",
      "write"] ++
    [("stderr", .file), ("stdin", .file), ("stdout", .file)]

/-- The libraries of a security level. -/
def SecurityLevel.libraries : SecurityLevel → List (String × List (String × LibraryMember))
  | .strict => computingLibraries
  | .standard =>
      computingLibraries ++
        [("os", allFunctions harmlessSystemFunctions), ("package", packageLibrary)]
  | .minimal =>
      computingLibraries ++
        [("os", allFunctions (harmlessSystemFunctions ++ processSystemFunctions)),
          ("package", packageLibrary), ("io", fileLibrary)]

/-- The operators that strings support by way of their metatable. -/
def stringOperators : List String :=
  ["__add", "__sub", "__mul", "__mod", "__pow", "__div", "__idiv", "__unm"]

namespace GuestState

/-- A member of a library. -/
def addMember (path : String) (g : GuestState) : LibraryMember → GuestValue × GuestState
  | .function =>
      let (id, g) := g.newFunction (.library path)
      (.function id, g)
  | .text s => (.ofString s, g)
  | .bytes data => (.string ⟨data.toArray⟩, g)
  | .float x => (.float x, g)
  | .integer n => (.integer n, g)
  | .table =>
      let (id, g) := g.newTable
      (.table id, g)
  | .file => g.newUserdata .foreign

/-- The members of a library, under names that start with `scope`. -/
def addMembers (scope : String) (g : GuestState) :
    List (String × LibraryMember) → List (GuestValue × GuestValue) × GuestState
  | [] => ([], g)
  | (name, member) :: rest =>
      let (v, g) := g.addMember (scope ++ name) member
      let (entries, g) := addMembers scope g rest
      ((.ofString name, v) :: entries, g)

/-- The tables of libraries. -/
def addLibraries (g : GuestState) :
    List (String × List (String × LibraryMember)) → List (GuestValue × GuestValue) × GuestState
  | [] => ([], g)
  | (name, members) :: rest =>
      let (entries, g) := g.addMembers (name ++ ".") members
      let (id, g) := g.newTable (GuestTable.add {} entries)
      let (tables, g) := addLibraries g rest
      ((.ofString name, .table id) :: tables, g)

/-- A fresh state with the given libraries. -/
def withLibraries (level : SecurityLevel) : GuestState :=
  let (globals, g) := ({} : GuestState).newTable
  let g := { g with globals }
  let (functions, g) := g.addMembers "" (allFunctions globalFunctions)
  let (libraries, g) := g.addLibraries level.libraries
  let hasLoader := level.libraries.any (·.1 == "package")
  let (loader, g) := g.addMembers "" (allFunctions (if hasLoader then ["require"] else []))
  let self := (GuestValue.ofString "_G", GuestValue.table globals)
  let g := g.modifyTable globals fun t =>
    t.add (functions ++ loader ++ [self, (.ofString "_VERSION", .ofString "Lua 5.4")] ++ libraries)
  -- loaded modules are listed in the loader
  let g :=
    match (g.table globals).field "package" with
    | .table package =>
        match (g.table package).field "loaded" with
        | .table loaded => g.modifyTable loaded fun t => t.add (self :: libraries)
        | _ => g
    | _ => g
  let (operators, g) := g.addMembers "string." (allFunctions stringOperators)
  let (strings, g) := g.newTable
    (GuestTable.add {} ((.ofString "__index", (g.table globals).field "string") :: operators))
  { g with stringMeta := some strings }

end GuestState
end ScriptPool
