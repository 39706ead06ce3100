import Rollout.Tick.Command

/-!
# Arguments

The command line consists of options for the whole program, a subcommand, and the options and
operands of that. The options for the whole program may stand before or after the subcommand.
-/

namespace Rollout.CommandLine

/-- What is to be done. -/
inductive Subcommand where
  /-- Tick until interrupted. -/
  | run
  /-- Begin a rollout. -/
  | create (request : Request)
  /-- Make a single tick. -/
  | tick (id : String) (command : Command)
  /-- Ask for a cancellation. -/
  | cancel (id : String)
  /-- Release a paused canary. -/
  | promote (id : String)
  /-- Show all deployments. -/
  | list
  deriving DecidableEq, Repr

/-- A command line that has been understood. -/
structure Invocation where
  config : Option String
  dataDir : Option String
  logJson : Bool
  subcommand : Subcommand
  deriving DecidableEq, Repr

/-- Why no invocation comes out of the arguments. -/
inductive Refusal where
  /-- Help was asked for. -/
  | help
  | usage (detail : String)
  deriving DecidableEq, Repr

/-- How an argument looks. -/
inductive Shape where
  /-- Two hyphens alone: only operands follow. -/
  | escape
  /-- An option, perhaps with its value behind an equals sign. -/
  | long (name : String) (value : Option String)
  /-- One hyphen with letters behind it. -/
  | short (letters : List Char)
  | plain
  deriving DecidableEq, Repr

/-- The shape of an argument. A hyphen alone is plain. -/
def shape (arg : String) : Shape :=
  match arg.toList with
  | ['-', '-'] => .escape
  | '-' :: '-' :: cs =>
    let name := String.ofList (cs.takeWhile (· != '='))
    match cs.dropWhile (· != '=') with
    | [] => .long name none
    | _ :: value => .long name (some (String.ofList value))
  | '-' :: c :: cs => .short (c :: cs)
  | _ => .plain

/-- A number of instances: decimal digits, perhaps with leading zeros or a sign, of at most 32
bits. -/
def readCount (value : String) : Option UInt32 :=
  let (negative, ds) :=
    match value.toList with
    | '-' :: ds => (true, ds)
    | '+' :: ds => (false, ds)
    | ds => (false, ds)
  let n := Text.ofDigits ds
  if ds.isEmpty ∨ ¬ds.all Text.isDigit then none
  else if negative ∧ n ≠ 0 then none
  else if h : n < UInt32.size then some (UInt32.ofNatLT n h)
  else none

/-- What a value on the command line has to be. -/
inductive ValueKind where
  | text
  /-- A path, which must not be empty. -/
  | path
  /-- A number of instances. -/
  | count
  /-- A tick command. -/
  | command
  deriving DecidableEq, Repr

/-- Whether a value is of a kind. -/
def ValueKind.accepts : ValueKind → String → Bool
  | .text, _ => true
  | .path, value => !value.isEmpty
  | .count, value => (readCount value).isSome
  | .command, value => (Command.parse value).toOption.isSome

/-- What a level of the command line takes: options with values, flags, and operands in their
order. -/
structure Grammar where
  valued : List (String × ValueKind)
  flags : List String
  operands : List ValueKind

/-- What is read from one level of the command line: its options with their values, and its
operands. -/
structure Level where
  options : List (String × String)
  operands : List String

namespace Level

/-- Nothing has been read yet. -/
def empty : Level :=
  ⟨[], []⟩

/-- Adds an option with a value of its kind, which must not have been given before on this
level. -/
def addOption (level : Level) (name : String) (kind : ValueKind) (value : String) :
    Except Refusal Level :=
  if (level.options.lookup name).isSome then
    .error (.usage ("the argument '--" ++ name ++ "' cannot be used multiple times"))
  else if kind.accepts value then
    .ok { level with options := level.options ++ [(name, value)] }
  else .error (.usage ("invalid value '" ++ value ++ "' for '--" ++ name ++ "'"))

/-- Adds an operand, of which there must not be more than have a kind. -/
def addOperand (level : Level) (kinds : List ValueKind) (value : String) :
    Except Refusal Level :=
  match kinds[level.operands.length]? with
  | none => .error (.usage ("unexpected argument '" ++ value ++ "' found"))
  | some kind =>
    if kind.accepts value then .ok { level with operands := level.operands ++ [value] }
    else .error (.usage ("invalid value '" ++ value ++ "'"))

/-- The value of an option that has to be given. -/
def required (level : Level) (name : String) : Except Refusal String :=
  match level.options.lookup name with
  | some value => .ok value
  | none => .error (.usage ("the argument '--" ++ name ++ "' is required"))

/-- The number of instances that an option gives, if it is given. -/
def count? (level : Level) (name : String) : Option UInt32 :=
  (level.options.lookup name).bind readCount

/-- The number of instances that an option has to give. -/
def count (level : Level) (name : String) : Except Refusal UInt32 :=
  match level.count? name with
  | some n => .ok n
  | none => .error (.usage ("the argument '--" ++ name ++ "' is required"))

end Level

/-- The refusal of a cluster of letters: only the one for help is known. -/
def refuseShort (letters : List Char) : Refusal :=
  if letters.head? = some 'h' then .help
  else .usage ("unexpected argument '-" ++ String.ofList letters ++ "' found")

/-- The refusal of an argument with a name that is not known. -/
def refuseLong (name : String) : Refusal :=
  if name = "help" then .help else .usage ("unexpected argument '--" ++ name ++ "' found")

/-- Reads one option. Its value may be attached to it, or else be the next argument, unless
that looks like an option. A value from the next argument is judged, but it is left to the
caller when to refuse it. -/
def readOption (grammar : Grammar) (level : Level) (name : String) (attached : Option String)
    (rest : List String) : Except Refusal (Except Refusal Level × List String) :=
  match grammar.valued.lookup name, attached with
  | some kind, some value => (level.addOption name kind value).map fun level => (.ok level, rest)
  | some kind, none =>
    match rest with
    | value :: rest =>
      if shape value = .plain then .ok (level.addOption name kind value, rest)
      else .error (.usage ("a value is required for '--" ++ name ++ "'"))
    | [] => .error (.usage ("a value is required for '--" ++ name ++ "'"))
  | none, some _ => .error (.usage ("unexpected value for '--" ++ name ++ "' found"))
  | none, none =>
    if name ∈ grammar.flags then
      (level.addOption name .text "").map fun level => (.ok level, rest)
    else .error (refuseLong name)

private theorem length_readOption {grammar : Grammar} {level : Level}
    {judged : Except Refusal Level} {name : String} {attached : Option String}
    {rest rest' : List String}
    (h : readOption grammar level name attached rest = .ok (judged, rest')) :
    rest'.length ≤ rest.length := by
  have hmap {e : Except Refusal Level} {r : List String}
      (h : (e.map fun level => (Except.ok level, r)) = .ok (judged, rest')) : r = rest' := by
    cases e with
    | error => simp [Except.map] at h
    | ok => exact (Prod.mk.inj (Except.ok.inj h)).2
  unfold readOption at h
  split at h
  · exact hmap h ▸ Nat.le_refl _
  · split at h
    · split at h
      · exact (Prod.mk.inj (Except.ok.inj h)).2 ▸ Nat.le_succ _
      · cases h
    · cases h
  · cases h
  · split at h
    · exact hmap h ▸ Nat.le_refl _
    · cases h

/-- Reads the options and operands of the last level. Whatever is wrong with an argument counts
before the next one is looked at. -/
def readLevel (grammar : Grammar) (level : Level) (args : List String) : Except Refusal Level :=
  match args with
  | [] => .ok level
  | arg :: rest =>
    match shape arg with
    | .escape => rest.foldlM (fun level arg => level.addOperand grammar.operands arg) level
    | .short letters => .error (refuseShort letters)
    | .plain =>
      match level.addOperand grammar.operands arg with
      | .error e => .error e
      | .ok level => readLevel grammar level rest
    | .long name attached =>
      match h : readOption grammar level name attached rest with
      | .error e => .error e
      | .ok (.error e, _) => .error e
      | .ok (.ok level, rest') =>
        have := length_readOption h
        readLevel grammar level rest'
termination_by args.length

/-- Reads the options in front of the subcommand, up to its name. What is wrong with a value is
found out at the next option only, and not at the subcommand: it is handed on. -/
def readFront (grammar : Grammar) (judged : Except Refusal Level) (args : List String) :
    Except Refusal (Except Refusal Level × String × List String) :=
  match args with
  | [] => .error (.usage "a subcommand is required")
  | arg :: rest =>
    match shape arg, judged with
    | .plain, judged => .ok (judged, arg, rest)
    | _, .error e => .error e
    | .escape, _ => .error (.usage "a subcommand is required")
    | .short letters, _ => .error (refuseShort letters)
    | .long name attached, .ok level =>
      match h : readOption grammar level name attached rest with
      | .error e => .error e
      | .ok (judged, rest') =>
        have := length_readOption h
        readFront grammar judged rest'
termination_by args.length

/-! ## The program's own levels -/

/-- The options for the whole program. -/
def general : Grammar where
  valued := [("config", .path), ("data-dir", .path)]
  flags := ["log-json"]
  operands := []

/-- What each subcommand takes, besides the options for the whole program. -/
def grammars : List (String × Grammar) := [
  ("run", ⟨[], [], []⟩),
  ("create",
    ⟨[("id", .text), ("app", .text), ("version", .text), ("previous-version", .text),
      ("original-instances", .count), ("desired-instances", .count),
      ("canary-instances", .count)], [], []⟩),
  ("tick", ⟨[], [], [.text, .command]⟩),
  ("cancel", ⟨[], [], [.text]⟩),
  ("promote", ⟨[], [], [.text]⟩),
  ("list", ⟨[], [], []⟩)]

/-- The request that the options of a rollout make up. -/
def readRequest (level : Level) : Except Refusal Request := do
  return {
    id := ← level.required "id"
    appId := ← level.required "app"
    version := ← level.required "version"
    previousVersion := ← level.required "previous-version"
    originalInstances := ← level.count "original-instances"
    desiredWebInstances := ← level.count "desired-instances"
    canaryTotalInstances := level.count? "canary-instances" }

/-- The subcommand with a name. -/
def readSubcommand (name : String) (level : Level) : Except Refusal Subcommand :=
  match name, level.operands with
  | "run", _ => .ok .run
  | "create", _ => (readRequest level).map .create
  | "tick", [id, word] =>
    match Command.parse word with
    | .ok command => .ok (.tick id command)
    | .error word => .error (.usage (Command.unknownMessage word))
  | "cancel", [id] => .ok (.cancel id)
  | "promote", [id] => .ok (.promote id)
  | "list", _ => .ok .list
  | _, _ => .error (.usage "required arguments were not provided")

/-- Help for the program or for one of its subcommands, which have none of their own. -/
def helpFor : List String → Refusal
  | [] => .help
  | [name] =>
    if name = "help" ∨ (grammars.lookup name).isSome then .help
    else .usage ("unrecognized subcommand '" ++ name ++ "'")
  | _ :: name :: _ => .usage ("unrecognized subcommand '" ++ name ++ "'")

/-- The invocation that arguments make up. An option after the subcommand wins over the same one
in front of it. -/
def parse (args : List String) : Except Refusal Invocation := do
  let (judged, name, rest) ← readFront general (.ok .empty) args
  if name = "help" then throw (helpFor rest)
  match grammars.lookup name with
  | none => throw (.usage ("unrecognized subcommand '" ++ name ++ "'"))
  | some own =>
    let grammar := { own with
      valued := general.valued ++ own.valued
      flags := general.flags ++ own.flags }
    let back ← readLevel grammar .empty rest
    let front ← judged
    let path (name : String) : Option String :=
      (back.options.lookup name).or (front.options.lookup name)
    return {
      config := path "config"
      dataDir := path "data-dir"
      logJson := [front, back].any fun level => (level.options.lookup "log-json").isSome
      subcommand := ← readSubcommand name back }

end Rollout.CommandLine
