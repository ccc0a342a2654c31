import ManagementPlane.Mode

/-!
# The command line

* `Options`, `Command`, `Invocation` : what a command line asks for;
* `Invocation.parse` : the invocation that arguments write. Options come before the command, each at most
  once, with their values behind them or behind an equals sign; the first argument that does not fit, or
  that asks for help, settles the matter. A value behind its option is looked at only when a command
  right behind it has not asked for help.
-/

namespace ManagementPlane.Program

/-- What the options set instead of the configuration. -/
structure Options where
  config : Option String := none
  mode : Option ManagementMode := none
  store : Option String := none
  deriving DecidableEq, Repr

/-- What is to be done. -/
inductive Command where
  /-- Rebind and report, in JSON or in words. -/
  | rebind (json : Bool)
  /-- Sum up the persisted state. -/
  | inspect
  deriving DecidableEq, Repr

/-- What a command line asks for. -/
inductive Invocation where
  | run (options : Options) (command : Command)
  | inform (lines : List String)
  | misuse
  deriving DecidableEq, Repr

/-! ## Texts -/

def version : List String := ["trellisd 0.1.0"]

def help : List String :=
  ["Trellis management daemon", "",
    "Usage: trellisd [OPTIONS] [COMMAND]", "",
    "Commands:",
    "  rebind   Rebind the live graph from the store and report the result",
    "  inspect  Summarise the persisted state without rebinding",
    "  help     Print this message or the help of the given subcommand(s)", "",
    "Options:",
    "      --config <FILE>  Path to configuration file",
    "      --mode <MODE>    Override the management mode [possible values: master, hot-standby,",
    "                       hot-backup]",
    "      --store <DIR>    Override the persisted state directory",
    "  -h, --help           Print help",
    "  -V, --version        Print version"]

def rebindHelp : List String :=
  ["Rebind the live graph from the store and report the result", "",
    "Usage: trellisd rebind [OPTIONS]", "",
    "Options:",
    "      --json  Print the report as JSON",
    "  -h, --help  Print help"]

def inspectHelp : List String :=
  ["Summarise the persisted state without rebinding", "",
    "Usage: trellisd inspect", "",
    "Options:",
    "  -h, --help  Print help"]

def helpHelp : List String :=
  ["Print this message or the help of the given subcommand(s)", "",
    "Usage: trellisd help [COMMAND]...", "",
    "Arguments:",
    "  [COMMAND]...  Print help for the subcommand(s)"]

/-! ## Commands -/

def asksHelp (a : String) : Bool := a == "--help" || a.startsWith "-h"

def rebindArguments (o : Options) (json : Bool) : List String → Invocation
  | [] => .run o (.rebind json)
  | a :: rest =>
    if asksHelp a then .inform rebindHelp
    else if a = "--json" ∧ !json then rebindArguments o true rest
    else if a = "--" ∧ rest = [] then .run o (.rebind json)
    else .misuse

def inspectArguments (o : Options) : List String → Invocation
  | [] => .run o .inspect
  | a :: rest =>
    if asksHelp a then .inform inspectHelp
    else if a = "--" ∧ rest = [] then .run o .inspect
    else .misuse

/-- The arguments of the command that asks for help. -/
def helpArguments : List String → Invocation
  | [] => .inform help
  | ["rebind"] => .inform rebindHelp
  | ["inspect"] => .inform inspectHelp
  | ["help"] => .inform helpHelp
  | _ => .misuse

def command? (o : Options) (name : String) (arguments : List String) : Option Invocation :=
  match name with
  | "rebind" => some (rebindArguments o false arguments)
  | "inspect" => some (inspectArguments o arguments)
  | "help" => some (helpArguments arguments)
  | _ => none

/-! ## Options -/

/-- Options that have a value. -/
inductive OptionName where
  | config
  | mode
  | store
  deriving DecidableEq, Repr

def OptionName.ofLabel? : String → Option OptionName
  | "--config" => some config
  | "--mode" => some mode
  | "--store" => some store
  | _ => none

/-- Set an option, unless it is set already or the value will not do. -/
def Options.set? (o : Options) (name : OptionName) (value : String) : Option Options :=
  match name with
  | .config =>
    if o.config.isNone ∧ value ≠ "" then some { o with config := some value } else none
  | .mode =>
    if o.mode.isNone then (ManagementMode.ofLabel? value).map fun m => { o with mode := some m }
    else none
  | .store =>
    if o.store.isNone ∧ value ≠ "" then some { o with store := some value } else none

/-- An option with its value behind an equals sign. -/
def attached? (a : String) : Option (OptionName × String) :=
  match a.toList.dropWhile (· ≠ '=') with
  | [] => none
  | _ :: value =>
    (OptionName.ofLabel? (String.ofList (a.toList.takeWhile (· ≠ '=')))).map fun name =>
      (name, String.ofList value)

/-- Whether an argument can be the value of the option before it. -/
def isValue (a : String) : Bool := a == "-" || !a.startsWith "-"

namespace Invocation

/-- An argument that stands for itself, with those behind it. -/
def ofWord (o : Options) (a : String) (rest : List String) : Invocation :=
  if asksHelp a then .inform help
  else if a = "--version" ∨ a.startsWith "-V" then .inform version
  else if a = "--" ∧ rest = [] then .run o (.rebind false)
  else (command? o a rest).getD .misuse

/-- What becomes of an option whose value will not do, by what stands behind it: only a command that
asks for help is still heard. -/
def afterBadValue (o : Options) : List String → Invocation
  | [] => .misuse
  | a :: rest =>
    match command? o a rest with
    | some (.inform lines) => .inform lines
    | _ => .misuse

/-- The invocation of the arguments behind some options. -/
def parseFrom (o : Options) : List String → Invocation
  | [] => .run o (.rebind false)
  | [a] =>
    match attached? a with
    | some (name, value) =>
      match o.set? name value with
      | some o => .run o (.rebind false)
      | none => .misuse
    | none => if (OptionName.ofLabel? a).isSome then .misuse else ofWord o a []
  | a :: b :: rest =>
    match attached? a, OptionName.ofLabel? a with
    | some (name, value), _ =>
      match o.set? name value with
      | some o => parseFrom o (b :: rest)
      | none => .misuse
    | none, some name =>
      if isValue b then
        match o.set? name b with
        | some o => parseFrom o rest
        | none => afterBadValue o rest
      else .misuse
    | none, none => ofWord o a (b :: rest)

def parse (arguments : List String) : Invocation := parseFrom {} arguments

end Invocation

end ManagementPlane.Program
