/-! Command lines: how arguments fall into options and positionals, and the help that describes
them. -/

namespace SessionShell

inductive OptionKind
  | switch
  | value
  | values
  deriving DecidableEq, Repr

structure OptionSpec where
  spellings : List String
  kind : OptionKind
  deriving DecidableEq, Repr

/-- The form of a command line. In a greedy one the first positional ends the options. -/
structure Usage where
  options : List OptionSpec := []
  greedy : Bool := false
  help : String
  deriving DecidableEq, Repr

structure Scanned where
  given : List (OptionSpec × Option String) := []
  positionals : List String := []
  deriving DecidableEq, Repr

inductive Refusal
  | help (text : String)
  | wrong (message : String)
  deriving DecidableEq, Repr

def Refusal.text : Refusal → String
  | .help text => text
  | .wrong message => message

namespace Usage

def isHelp (arg : String) : Bool :=
  arg = "--help" || arg = "help"

def isOption (arg : String) : Bool :=
  arg.toList.head? == some '-'

def find? (u : Usage) (arg : String) : Option OptionSpec :=
  u.options.find? (·.spellings.contains arg)

/-- Goes through the arguments. `options` says that options may still follow, and `helpSeen` that
help was asked for. -/
def scanFrom (u : Usage) (options helpSeen : Bool) (found : Scanned) :
    List String → Except Refusal Scanned
  | [] => if helpSeen then .error (.help u.help) else .ok found
  | arg :: rest =>
    if options && isHelp arg then u.scanFrom true true found rest
    else if options && isOption arg then
      if arg = "--" then u.scanFrom false helpSeen found rest
      else if helpSeen then .error (.wrong "Trailing arguments are not allowed after `help`.")
      else match u.find? arg with
        | none => .error (.wrong ("Unrecognized argument: " ++ arg ++ "\n"))
        | some o =>
          if o.kind = .switch then
            u.scanFrom true helpSeen { found with given := found.given ++ [(o, none)] } rest
          else match rest with
            | [] => .error (.wrong ("No value provided for option '" ++ arg ++ "'.\n"))
            | value :: rest =>
              if o.kind = .value && found.given.any (·.1 = o) then
                .error (.wrong ("Error parsing option '" ++ arg ++ "' with value '" ++ value ++
                  "': duplicate values provided\n"))
              else
                u.scanFrom true helpSeen
                  { found with given := found.given ++ [(o, some value)] } rest
    else
      u.scanFrom (options && !u.greedy) helpSeen
        { found with positionals := found.positionals ++ [arg] } rest

def scan (u : Usage) (args : List String) : Except Refusal Scanned :=
  u.scanFrom true false {} args

end Usage

namespace Scanned

def has (s : Scanned) (o : OptionSpec) : Bool :=
  s.given.any (·.1 = o)

def values (s : Scanned) (o : OptionSpec) : List String :=
  s.given.filterMap fun (p, value) => if p = o then value else none

end Scanned

def helpLine (spellings description : String) : String :=
  "  " ++ spellings ++ String.ofList (List.replicate (18 - spellings.length) ' ') ++ description ++
    "\n"

def helpText (usage purpose options : String) : String :=
  "Usage: " ++ usage ++ "\n\n" ++ purpose ++ "\n\n" ++ options ++
    helpLine "--help, help" "display usage information"

end SessionShell
