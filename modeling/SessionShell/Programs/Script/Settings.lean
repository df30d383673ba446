import SessionShell.Programs.Script.State

/-! The settings of a shell, and the options that switch them. -/

namespace SessionShell.Programs.Settings

/-- The settings by name and letter. The last ones have no letter: their characters are no bytes, so
that no text holds them. -/
def table : List (String × Char) :=
  [("errexit", 'e'), ("noglob", 'f'), ("ignoreeof", 'I'), ("interactive", 'i'), ("monitor", 'm'),
    ("noexec", 'n'), ("stdin", 's'), ("xtrace", 'x'), ("verbose", 'v'), ("vi", 'V'),
    ("emacs", 'E'), ("noclobber", 'C'), ("allexport", 'a'), ("notify", 'b'), ("nounset", 'u'),
    ("privileged", 'p'), ("nolog", 'ℓ'), ("debug", 'δ')]

def switch (letter : Char) (on : Bool) : Step Unit :=
  modify fun r =>
    let others := r.settings.filter (· != letter)
    { r with
      settings := if on then letter :: others else others
      undecided := r.undecided.filter (· != letter) }

/-- Switches a setting by its letter. Of the two ways of editing lines only one is on. -/
def switchLetter (letter : Char) (on : Bool) : Step Unit := do
  if !table.any (·.2 == letter) then
    ShellRun.fail (String.ofList ("Illegal option ".toList ++ [if on then '-' else '+', letter]))
  switch letter on
  if on && letter = 'V' then switch 'E' false
  if on && letter = 'E' then switch 'V' false

def switchName (name : Option Raw) (on : Bool) : Step Unit := do
  match name with
  | none =>
    let r ← get
    let isOn (letter : Char) : Bool := r.isSet letter || r.undecided.contains letter
    if on then
      ShellRun.put "Current option settings\n"
    for (name, letter) in table do
      ShellRun.put (if on then
          String.ofList (name.toList ++ List.replicate (16 - name.length) ' ') ++
            (if isOn letter then "on\n" else "off\n")
        else "set " ++ (if isOn letter then "-" else "+") ++ "o " ++ name ++ "\n")
  | some name =>
    match table.lookup name with
    | some letter => switch letter on
    | none => ShellRun.fail ("Illegal option -o " ++ name)

structure Asked where
  script : Bool := false
  rest : List Raw := []
  marked : Bool := false

/-- Reads letters that stand together. `o` takes its name from the next arguments, which are
returned as far as they are left. -/
def readLetters (starting on : Bool) : List Char → List Raw → Bool → Step (List Raw × Bool)
  | [], next, script => return (next, script)
  | letter :: letters, next, script => do
    if letter = 'c' && starting then readLetters starting on letters next true
    else if letter = 'l' && starting then readLetters starting on letters next script
    else if letter = 'o' then
      switchName next.head? on
      readLetters starting on letters (next.drop 1) script
    else
      switchLetter letter on
      readLetters starting on letters next script

/-- Switches settings as options at the front of arguments ask for. `starting` says that they are the
arguments of a shell, where options for its start are known too. The bound is greater than the
number of the arguments. -/
def read (starting : Bool) : Nat → List Raw → Bool → Step Asked
  | 0, args, script => return { script, rest := args }
  | _, [], script => return { script }
  | bound + 1, arg :: rest, script => do
    match arg.toList with
    | ['-'] =>
      if !starting then
        switch 'x' false
        switch 'v' false
      return { script, rest }
    | ['-', '-'] => return { script, rest, marked := true }
    | '-' :: letters =>
      let (rest, script) ← readLetters starting true letters rest script
      read starting bound rest script
    | '+' :: letters =>
      let (rest, script) ← readLetters starting false letters rest script
      read starting bound rest script
    | _ => return { script, rest := arg :: rest }

/-- Decides on what the arguments of the shell have left open: a shell that talks to a user controls
jobs. -/
def decide : Step Unit := do
  let r ← get
  if r.isSet 'i' && r.undecided.contains 'm' then
    switch 'm' true
  modify fun r => { r with undecided := [] }

def settle : Step Unit := do
  if (← get).isSet 'm' then
    ShellRun.warn "can't access tty; job control turned off"
    switch 'm' false

end SessionShell.Programs.Settings
