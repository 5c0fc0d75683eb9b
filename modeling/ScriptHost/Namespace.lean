import ScriptHost.Binding.Pool
import ScriptHost.Script.Execute
import ScriptHost.Script.Parse

/-!
# The globals of a script

A script sees an environment: its own globals, and behind them the names that the host binds. It can read the
bound names but not change them, and the libraries are read-only. The functions that let a failure come back
as an answer pass the termination signal on.

* `Namespace.Builder`: the names that are to be bound; no name twice, and none that is reserved.
* `Namespace.Builder.freeze`: make the environment.
* `Namespace.entryPoint`: a function of the script, by its name.
-/

namespace ScriptHost

open ScriptHost.Script Binding

/-- The globals of a script. -/
structure Namespace where
  /-- The table that the script uses for its globals. -/
  env : Nat
  /-- The table of the names that the host binds. -/
  host : Nat
  /-- The names that were bound beside those that every script has. -/
  names : List String
  deriving Inhabited

namespace Namespace

/-- The functions of the base library that every script has, and the version. -/
def baseNames : List String :=
  ["assert", "error", "getmetatable", "ipairs", "next", "pairs", "pcall", "rawequal", "rawget", "rawlen",
   "select", "setmetatable", "tonumber", "tostring", "type", "xpcall", "_VERSION"]

/-- The version of the script language. -/
def version : String := "Lua 5.4"

/-- The names that cannot be bound in a mode. -/
def isReserved (mode : Mode) (name : String) : Bool :=
  name = "_G" || name = "rawset" || baseNames.contains name || mode.libraries.contains name

/-- The script that makes read-only tables and environments and guards the functions that catch failures. -/
def preludeText : String := "
local is_interrupt = ...
local next, error, rawget, rawset, setmetatable, tostring =
    next, error, rawget, rawset, setmetatable, tostring
local pcall, xpcall = pcall, xpcall
local resume = coroutine and coroutine.resume

local frozen = setmetatable(\x7b\x7d, \x7b __mode = \"k\" \x7d)
local hosts = setmetatable(\x7b\x7d, \x7b __mode = \"k\" \x7d)

local function read_only(inner, name)
    local proxy = \x7b\x7d
    setmetatable(proxy, \x7b
        __index = inner,
        __newindex = function()
            error(\"attempt to modify read-only table '\" .. name .. \"'\", 2)
        end,
        __pairs = function()
            return function(_, k) return next(inner, k) end, proxy, nil
        end,
        __len = function() return #inner end,
        __metatable = false,
    \x7d)
    frozen[proxy] = true
    return proxy
end

local function environment(host)
    local env = \x7b\x7d
    setmetatable(env, \x7b
        __index = host,
        __newindex = function(t, k, v)
            if rawget(host, k) ~= nil then
                error(\"cannot assign to protected global '\" .. tostring(k) .. \"'\", 2)
            end
            rawset(t, k, v)
        end,
        __metatable = false,
    \x7d)
    hosts[env] = host
    return env
end

local function guarded_rawset(t, k, v)
    if frozen[t] then
        error(\"attempt to modify read-only table\", 2)
    end
    local host = hosts[t]
    if host ~= nil and rawget(host, k) ~= nil then
        error(\"cannot assign to protected global '\" .. tostring(k) .. \"'\", 2)
    end
    return rawset(t, k, v)
end

local function pass(ok, ...)
    if not ok and is_interrupt((...)) then
        error((...), 0)
    end
    return ok, ...
end

local function safe_pcall(f, ...)
    return pass(pcall(f, ...))
end

local function safe_xpcall(f, handler, ...)
    return pass(xpcall(f, function(e)
        if is_interrupt(e) then return e end
        return handler(e)
    end, ...))
end

local safe_resume = resume and function(co, ...)
    return pass(resume(co, ...))
end

return \x7b
    read_only = read_only,
    environment = environment,
    rawset = guarded_rawset,
    pcall = safe_pcall,
    xpcall = safe_xpcall,
    resume = safe_resume,
\x7d
"

/-- The prelude, ready to run. -/
def prelude : Except Bytes Proto := compile (Bytes.ofString "sandbox") (Bytes.ofString preludeText)

/-- The names that are to be bound. -/
structure Builder where
  mode : Mode
  bindings : List (String × Value) := []

namespace Builder

/-- A name is to be bound. -/
def contains (b : Builder) (name : String) : Bool := b.bindings.any fun x => x.1 == name

/-- Bind a name, unless it is bound already or reserved. -/
def bind (b : Builder) (name : String) (v : Value) : Except SetupError Builder :=
  if b.contains name || isReserved b.mode name then .error (.duplicateBinding name)
  else .ok { b with bindings := b.bindings ++ [(name, v)] }

/-- Bind names in order. -/
def bindAll (b : Builder) (xs : List (String × Value)) : Except SetupError Builder :=
  xs.foldlM (fun b x => b.bind x.1 x.2) b

end Builder

variable {σ : Type}

/-- The function that tells the termination signal from other failures. -/
def probe (args : Array Value) : Act σ (Array Value) := do
  let v := args.getD 0 .nil
  checkSpent v
  match v with
  | .failure id =>
    match ← Act.readHeap fun h => h.failures.getD id default with
    | .fault f => return #[.bool f.isInterrupt]
    | .panic _ => return #[.bool false]
  | _ => return #[.bool false]

/-- The functions of a machine for the script of a pool: the probe is the first one. -/
def hostBodies (p : Pool σ) : Array (Array Value → Act σ (Array Value)) :=
  #[probe] ++ p.entries.map PoolEntry.body

/-- The functions of a pool as values of a machine. -/
def poolValues (p : Pool σ) : List (String × Value) :=
  p.names.zipIdx.map fun (name, i) => (name, .native (.host (i + 1)))

/-- A new table with the given fields. -/
def tableWith (m : Machine σ) (fields : List (String × Value)) : Nat × Machine σ :=
  let heap := m.heap
  let m := { m with heap := default }
  let (id, heap) := heap.newTable (Library.tableOf fields)
  (id, { m with heap })

/-- File a value under a name. -/
def setField (m : Machine σ) (table : Nat) (name : String) (v : Value) : Machine σ :=
  let heap := m.heap
  let m := { m with heap := default }
  { m with heap := heap.onTable table fun t => t.setStr name v }

/-- The value under a name. -/
def field (m : Machine σ) (table : Nat) (name : String) : Value :=
  (m.heap.table table).getStr (Bytes.ofString name)

/-- How many steps the prelude may take. -/
def setupFuel : Nat := 1000000

/-- Call a function that ends soon. -/
def call [Inhabited σ] (m : Machine σ) (f : Value) (args : Array Value) : Value × Machine σ :=
  match (m.start f args).run setupFuel with
  | (some (.returned vs), m) => (vs.getD 0 .nil, m)
  | (_, m) => (.nil, m)

/-- The tables of the libraries of a mode. -/
def libraryTables (m : Machine σ) (mode : Mode) : List (String × Nat) × Machine σ :=
  mode.libraries.foldl (fun (tables, m) name =>
    let (id, m) := tableWith m (Library.members name)
    (tables ++ [(name, id)], m)) ([], m)

/-- The functions of the base library and the version. -/
def baseFields : List (String × Value) :=
  Builtin.base.map (fun (name, b) => (name, Value.native (.builtin b))) ++ [("_VERSION", .ofString version)]

/-- Give all strings a metatable whose index is the given table. -/
def setTexts (m : Machine σ) (index : Value) : Machine σ :=
  let heap := m.heap
  let m := { m with heap := default }
  { m with heap := Library.installTexts heap index }

/-- Hide the metatable of strings behind a read-only table. -/
def guardTexts (m : Machine σ) (index : Value) : Machine σ :=
  match m.heap.stringMeta with
  | some t => setField (setField m t "__index" index) t "__metatable" (.bool false)
  | none => m

/-- The part of the library of the operating system that a script gets. -/
def systemNames : List String := ["clock", "date", "difftime", "time"]

/-- Members of libraries that no script gets. -/
def stripped : List (String × String) := [("string", "dump")]

/-- A script gets this member of a library. -/
def isOffered (library member : String) : Bool :=
  !stripped.contains (library, member) && (library != "os" || systemNames.contains member)

/-- The members of a library as a script gets it: those that it may have, and the function that resumes coroutines is
a guarded one. -/
def offered (library : String) (resume : Value) : List (String × Value) :=
  ((Library.members library).filter fun x => isOffered library x.1).map fun (key, v) =>
    if library = "coroutine" && key = "resume" then (key, resume) else (key, v)

/-- Bind the libraries of a mode as read-only tables. -/
def bindLibraries [Inhabited σ] (m : Machine σ) (host : Nat) (readOnly resume : Value) :
    List String → Machine σ
  | [] => m
  | name :: rest =>
    let (copy, m) := tableWith m (offered name resume)
    let (proxy, m) := call m readOnly #[.table copy, .ofString name]
    let m := if name = "string" then guardTexts m proxy else m
    bindLibraries (setField m host name proxy) host readOnly resume rest

/-- The value as a table. -/
def tableId : Value → Nat
  | .table id => id
  | _ => 0

/-- The libraries of a mode, the metatable of strings and the table of globals for the prelude. -/
def Builder.globals (b : Builder) (m : Machine σ) : Nat × Machine σ :=
  let (libraries, m) := libraryTables m b.mode
  let m := match libraries with
    | (_, strings) :: _ => setTexts m (.table strings)
    | [] => m
  tableWith m (baseFields ++ libraries.map fun (name, id) => (name, .table id))

/-- The helpers that a prelude makes. -/
def helpers [Inhabited σ] (compiled : Except Bytes Proto) (globals : Nat) (m : Machine σ) : Value × Machine σ :=
  match compiled with
  | .ok p =>
    let (f, m) := m.load p (.table globals)
    call m f #[.native (.host 0)]
  | .error _ => (.nil, m)

/-- The functions of the base library for a script; those that catch failures and the one that writes without a
metatable are guarded ones. -/
def boundBase (guarded : String → Value) : List (String × Value) :=
  baseFields.filter (fun x => baseNames.contains x.1) ++ ["pcall", "xpcall", "rawset"].map fun name => (name, guarded name)

/-- Make the environment in front of the table of bound names, and bind it too. -/
def Builder.enclose [Inhabited σ] (b : Builder) (host : Nat) (environment : Value) (m : Machine σ) :
    Namespace × Machine σ :=
  let (env, m) := call m environment #[.table host]
  (⟨tableId env, host, b.bindings.map Prod.fst⟩, setField m host "_G" env)

/-- Bind all names, and make the environment. -/
def Builder.bindWith [Inhabited σ] (b : Builder) (helper : String → Value) (m : Machine σ) : Namespace × Machine σ :=
  let (host, m) := tableWith m (boundBase helper)
  let m := bindLibraries m host (helper "read_only") (helper "resume") b.mode.libraries
  b.enclose host (helper "environment") (b.bindings.foldl (fun m x => setField m host x.1 x.2) m)

/-- Make the environment of a script, with the helpers of a prelude. -/
def Builder.freezeWith [Inhabited σ] (compiled : Except Bytes Proto) (b : Builder) (m : Machine σ) :
    Namespace × Machine σ :=
  let (globals, m) := b.globals m
  let (helpers, m) := helpers compiled globals m
  b.bindWith (field m (tableId helpers)) m

/-- Make the environment of a script. -/
def Builder.freeze [Inhabited σ] (b : Builder) (m : Machine σ) : Namespace × Machine σ := b.freezeWith prelude m

/-- A name is bound by the host. -/
def isHostBound (ns : Namespace) (m : Machine σ) (name : String) : Bool := !(field m ns.host name).isNil

/-- The value of a global. -/
def global (ns : Namespace) (m : Machine σ) (name : String) : Value :=
  match field m ns.env name with
  | .nil => field m ns.host name
  | v => v

/-- A global that is a function. -/
def entryPoint (ns : Namespace) (m : Machine σ) (name : String) : Option Value :=
  match ns.global m name with
  | .closure id => some (.closure id)
  | .native f => some (.native f)
  | _ => none

end Namespace

end ScriptHost
