import CompanyRegister.Files.Pathname

/-!
# Command lines

A command line names one command. Options may stand before it or behind it; an option that is given
in both places counts behind it, and the environment counts where neither gives it. Arguments are
read from left to right, and the first that cannot stand where it stands ends the reading.

    arguments ──Scope.scan──▶ options and operands ──parse──▶ Invocation
-/

namespace CompanyRegister.Command

open Files Text

/-- What is to be done. -/
inductive Task
  | annotate (file : Pathname) (output : Option Pathname) (markers : List (List Char))
  | validate (file : Pathname)
  | schema
  | initDb (path : Pathname)
  deriving DecidableEq, Repr

/-- A task and how to keep a log of it. -/
structure Invocation where
  logLevel : Option (List Char)
  logDir : Option (List Char)
  task : Task
  deriving DecidableEq, Repr

/-- Why the reading of a command line ends before there is a task. -/
inductive Stop
  | usage
  | help
  | version
  deriving DecidableEq, Repr

/-! ### Options -/

inductive Key
  | logLevel
  | logDir
  | output
  | marker
  deriving DecidableEq, Repr

namespace Key

def long : Key → String
  | logLevel => "log-level"
  | logDir => "log-dir"
  | output => "output"
  | marker => "ignore-default-marker"

def short? : Key → Option Char
  | output => some 'o'
  | _ => none

/-- Whether the value of an option is a path, which is never empty. -/
def isPath : Key → Bool
  | logDir | output => true
  | _ => false

/-- Whether an option may be given several times. -/
def isRepeatable : Key → Bool
  | marker => true
  | _ => false

/-- The variable of the environment that stands in for an option. -/
def envName? : Key → Option String
  | logLevel => some "SCHEMAGATE_LOG_LEVEL"
  | logDir => some "SCHEMAGATE_LOG_DIR"
  | _ => none

end Key

/-- Whether a text can be the value of an option. -/
def Key.accepts (k : Key) (value : List Char) : Bool := !(k.isPath && value == [])

/-- What has been read of a command line. -/
structure Scan where
  given : List (Key × List Char) := []
  operands : List (List Char) := []
  deriving DecidableEq, Repr

namespace Scan

def values (s : Scan) (k : Key) : List (List Char) :=
  (s.given.filter fun g => g.1 == k).map Prod.snd

/-- The value given to an option that is given once. -/
def value? (s : Scan) (k : Key) : Option (List Char) := (s.values k).head?

/-- Take the value of an option. -/
def give (s : Scan) (k : Key) (value : List Char) : Except Stop Scan :=
  if !k.accepts value || (!k.isRepeatable && (s.value? k).isSome) then .error .usage
  else .ok { s with given := s.given ++ [(k, value)] }

end Scan

inductive Token
  /-- The argument behind which all are operands. -/
  | endOfOptions
  | long (name : List Char) (value : Option (List Char))
  | short (name : Char) (rest : List Char)
  | operand
  deriving DecidableEq, Repr

def Token.of : List Char → Token
  | ['-', '-'] => .endOfOptions
  | '-' :: '-' :: rest =>
    match cut? ['='] rest with
    | some (name, value) => .long name (some value)
    | none => .long rest none
  | '-' :: c :: rest => .short c rest
  | _ => .operand

/-! ### Reading arguments -/

/-- Where arguments stand. -/
structure Scope where
  keys : List Key
  /-- The most operands. -/
  operands : Nat
  /-- Whether the reading stops at the first operand, and the version may be asked for. -/
  isOuter : Bool

namespace Scope

/-- The options that may stand anywhere. -/
def anywhere : List Key := [.logLevel, .logDir]

/-- Before the command. -/
def outer : Scope := ⟨anywhere, 1, true⟩

/-- Take an operand, which is a path. -/
def place (sc : Scope) (s : Scan) (a : List Char) : Except Stop Scan :=
  if s.operands.length < sc.operands ∧ a ≠ [] then .ok { s with operands := s.operands ++ [a] }
  else .error .usage

/-- The option of a long name, or a request that ends the reading. -/
def long (sc : Scope) (name : List Char) (value : Option (List Char)) : Except Stop Key :=
  match sc.keys.find? fun k => k.long.toList = name with
  | some k => .ok k
  | none =>
    if value.isSome then .error .usage
    else if name = "help".toList then .error .help
    else if name = "version".toList ∧ sc.isOuter then .error .version
    else .error .usage

/-- The option of a short name, or a request that ends the reading. -/
def short (sc : Scope) (name : Char) : Except Stop Key :=
  match sc.keys.find? fun k => k.short? = some name with
  | some k => .ok k
  | none =>
    if name = 'h' then .error .help
    else if name = 'V' ∧ sc.isOuter then .error .version
    else .error .usage

/-- The value that stands in the same argument as a short name. -/
def attached : List Char → Option (List Char)
  | [] => none
  | '=' :: value => some value
  | value => some value

/-- Read arguments. An option whose value is the next argument is `pending`. What is left is what
stands behind the operand at which the reading stops. -/
def scan (sc : Scope) (pending : Option Key) (s : Scan) :
    List (List Char) → Except Stop (Scan × List (List Char))
  | [] => if pending.isSome then .error .usage else .ok (s, [])
  | a :: rest =>
    match pending, Token.of a with
    | some k, .operand => do scan sc none (← s.give k a) rest
    | some _, _ => .error .usage
    | none, .endOfOptions =>
      if sc.isOuter then .error .usage
      else do return (← rest.foldlM sc.place s, [])
    | none, .long name value => do
      let k ← sc.long name value
      match value with
      | some v => scan sc none (← s.give k v) rest
      | none => scan sc (some k) s rest
    | none, .short name tail => do
      let k ← sc.short name
      match attached tail with
      | some v => scan sc none (← s.give k v) rest
      | none => scan sc (some k) s rest
    | none, .operand => do
      let s ← sc.place s a
      if sc.isOuter then return (s, rest)
      scan sc none s rest

end Scope

/-! ### Commands -/

inductive Name
  | annotate
  | validate
  | schema
  | initDb
  deriving DecidableEq, Repr

namespace Name

def all : List Name := [annotate, validate, schema, initDb]

/-- The words for a command, the full one first. -/
def words : Name → List String
  | annotate => ["annotate", "a"]
  | validate => ["validate", "v"]
  | schema => ["schema"]
  | initDb => ["init-db"]

/-- The command that a word names. -/
def ofWord? (word : List Char) : Option Name :=
  all.find? fun n => (n.words.map String.toList).contains word

/-- Behind a command. -/
def scope : Name → Scope
  | annotate => ⟨Scope.anywhere ++ [.output, .marker], 1, false⟩
  | validate | initDb => ⟨Scope.anywhere, 1, false⟩
  | schema => ⟨Scope.anywhere, 0, false⟩

/-- The task that a command and what was read behind it make. -/
def task (n : Name) (s : Scan) : Except Stop Task :=
  match n, s.operands with
  | annotate, [file] => .ok (.annotate ⟨file⟩ ((s.value? .output).map Pathname.mk) (s.values .marker))
  | validate, [file] => .ok (.validate ⟨file⟩)
  | schema, [] => .ok .schema
  | initDb, [path] => .ok (.initDb ⟨path⟩)
  | _, _ => .error .usage

end Name

/-- The value of an option: given behind the command, before it, or by the environment. A variable
that counts in either place must be a possible value. -/
def setting (environment : String → Option String) (outer inner : Scan) (k : Key) :
    Except Stop (Option (List Char)) :=
  let default := (k.envName?.bind environment).map String.toList
  let isUsed := (outer.value? k).isNone || (inner.value? k).isNone
  if isUsed && default.any fun v => !k.accepts v then .error .usage
  else .ok (inner.value? k <|> outer.value? k <|> default)

/-- What a command line asks for. -/
def parse (environment : String → Option String) (arguments : List (List Char)) :
    Except Stop Invocation := do
  let (outer, rest) ← Scope.outer.scan none {} arguments
  match outer.operands with
  | [word] =>
    if word = "help".toList then throw (if rest.all fun w => (Name.ofWord? w).isSome
      then .help else .usage)
    match Name.ofWord? word with
    | none => throw .usage
    | some n =>
      let (inner, _) ← n.scope.scan none {} rest
      let task ← n.task inner
      return {
        logLevel := ← setting environment outer inner .logLevel
        logDir := ← setting environment outer inner .logDir
        task := task }
  | _ => throw .usage

end CompanyRegister.Command
