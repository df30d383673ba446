import SessionShell.Usage

/-! The arguments of the program. -/

namespace SessionShell

structure Arguments where
  paths : List String := []
  version : Bool := false
  strict : Bool := false
  run : Bool := false
  nowrite : Bool := false
  interact : Bool := false
  debug : Bool := false
  code : List String := []
  formatter : Option String := none
  translator : Option String := none
  deriving DecidableEq, Repr

namespace Arguments

def versionOption : OptionSpec := ⟨["-v", "--version"], .switch⟩
def strictOption : OptionSpec := ⟨["-s", "--strict"], .switch⟩
def runOption : OptionSpec := ⟨["-r", "--run"], .switch⟩
def nowriteOption : OptionSpec := ⟨["-n", "--nowrite"], .switch⟩
def interactOption : OptionSpec := ⟨["-i", "--interact"], .switch⟩
def debugOption : OptionSpec := ⟨["-d", "--debug"], .switch⟩
def codeOption : OptionSpec := ⟨["-c", "--code"], .values⟩
def formatterOption : OptionSpec := ⟨["--formatter"], .value⟩
def translatorOption : OptionSpec := ⟨["--translator"], .value⟩

def usage : Usage :=
  { options := [versionOption, strictOption, runOption, nowriteOption, interactOption, debugOption,
      codeOption, formatterOption, translatorOption]
    help := helpText
      ("husk [-v] [-s] [-r] [-n] [-i] [-d] [-c <code...>] [--formatter <formatter>] " ++
        "[--translator <translator>] [--] [<paths...>]")
      "Compile husk sources, run them, or start an interactive prompt."
      ("Positional Arguments:\n" ++
        helpLine "paths" "source files or module directories to compile." ++
        "\nOptions:\n" ++
        helpLine "-v, --version" "print the version." ++
        helpLine "-s, --strict" "reject sloppy whitespace while translating." ++
        helpLine "-r, --run" "run compiled files after compiling them." ++
        helpLine "-n, --nowrite" "do not write compiled files." ++
        helpLine "-i, --interact" "start the interactive prompt after everything else." ++
        helpLine "-d, --debug" "print compiled code before executing it." ++
        helpLine "-c, --code" "code to compile and run; may be repeated." ++
        helpLine "--formatter" "formatter command every compiled fragment is piped through." ++
        helpLine "--translator" "external translator program (default: $HUSK_TRANSLATOR, else" ++
        helpLine "" "built in).") }

def parse (argv : List String) : Except Refusal Arguments :=
  match usage.scan argv with
  | .error refusal => .error refusal
  | .ok s => .ok
    { paths := s.positionals
      version := s.has versionOption
      strict := s.has strictOption
      run := s.has runOption
      nowrite := s.has nowriteOption
      interact := s.has interactOption
      debug := s.has debugOption
      code := s.values codeOption
      formatter := (s.values formatterOption).head?
      translator := (s.values translatorOption).head? }

def wantsPrompt (a : Arguments) : Bool :=
  a.interact || (a.paths.isEmpty && a.code.isEmpty && !a.version)

end Arguments

end SessionShell
