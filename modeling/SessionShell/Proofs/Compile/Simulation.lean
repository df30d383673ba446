import SessionShell.Proofs.Compile.Writes

/-! Compiling with two backends that answer alike. What is done to a path depends on nothing but the
answers of the backend, so that a relation between the states of two backends that each of their
operations keeps is kept by compiling. The relation is told which codes have been executed. -/

namespace SessionShell

def gathered {σ β γ : Type} (step : σ → β → σ) (gives : σ → β → List γ) : List β → σ → List γ
  | [], _ => []
  | b :: rest, s => gives s b ++ gathered step gives rest (step s b)

namespace Compile

variable {σ : Type} (b : Backend σ) (settings : Settings)

/-- The code of a source, if it is to be run and nothing goes wrong before that. -/
def sourceCodes (mode : Mode) (s : σ) (source : String) : List String :=
  match (compile b settings mode source s).1 with
  | .ok _ => if settings.run then (codeOf b mode source s).toList else []
  | .error _ => []

def directoryCodes (s : σ) : Except Failure ModuleDirectory → List String
  | .error _ => []
  | .ok d =>
    gathered (fun s source => compileFile b settings .module source s)
      (sourceCodes b settings .module) d.sources (reporting b (bootstrap b d.path s))

def pathCodes (s : σ) (path : String) : List String :=
  if (b.files s).isFile b.directory path then sourceCodes b settings .file s path
  else if (b.files s).isDirectory b.directory path then
    gathered (compileDirectory b settings) (directoryCodes b settings)
      (moduleTree (b.files s) b.directory path) s
  else []

end Compile

variable {σ τ : Type}

theorem related_foldl {β γ : Type} {R : List γ → σ → τ → Prop} {step : σ → β → σ}
    {step' : τ → β → τ} {gives : σ → β → List γ}
    (steps : ∀ {given s t}, R given s t → ∀ b, R (given ++ gives s b) (step s b) (step' t b))
    {given : List γ} {s : σ} {t : τ} (related : R given s t) (bs : List β) :
    R (given ++ gathered step gives bs s) (bs.foldl step s) (bs.foldl step' t) := by
  induction bs generalizing given s t with
  | nil => rwa [gathered, List.append_nil]
  | cons b bs ih =>
    rw [gathered, ← List.append_assoc]
    exact ih (steps related b)

def Agree {ε : Type} (R : σ → τ → Prop) (x : ε × σ) (y : ε × τ) : Prop :=
  x.1 = y.1 ∧ R x.2 y.2

/-- Two backends that answer alike, and whose operations keep a relation. -/
structure Backend.Simulates (b : Backend σ) (b' : Backend τ) (R : List String → σ → τ → Prop) :
    Prop where
  directory : b'.directory = b.directory
  files {codes s t} : R codes s t → b'.files t = b.files s
  setFiles {codes s t} : R codes s t → ∀ files, R codes (b.setFiles files s) (b'.setFiles files t)
  report {codes s t} : R codes s t → ∀ r, R codes (b.report r s) (b'.report r t)
  translate {codes s t} : R codes s t → ∀ text mode,
    Agree (R codes) (b.translate text mode s) (b'.translate text mode t)
  header {codes s t} : R codes s t → Agree (R codes) (b.header s) (b'.header t)
  execute {codes s t} : R codes s t → ∀ code,
    R (codes ++ [code]) (b.execute code s) (b'.execute code t)

namespace Backend.Simulates

variable {b : Backend σ} {b' : Backend τ} {R : List String → σ → τ → Prop}
  (simulates : b.Simulates b' R) {codes : List String} {s : σ} {t : τ} (settings : Compile.Settings)
include simulates

theorem writeFile (related : R codes s t) (path text : String) :
    Agree (R codes) (Compile.writeFile b path text s) (Compile.writeFile b' path text t) := by
  unfold Compile.writeFile
  rw [simulates.directory, simulates.files related]
  cases (b.files s).write b.directory path (Text.Utf8.encode text) with
  | error e => exact ⟨rfl, related⟩
  | ok files => exact ⟨rfl, simulates.setFiles related files⟩

theorem writeCode (related : R codes s t) (source code : String) :
    Agree (R codes) (Compile.writeCode b source code s) (Compile.writeCode b' source code t) := by
  have wrote := simulates.writeFile related (Compile.destination source) code
  unfold Compile.writeCode
  generalize Compile.writeFile b (Compile.destination source) code s = x at wrote ⊢
  generalize Compile.writeFile b' (Compile.destination source) code t = y at wrote ⊢
  obtain ⟨answer, s⟩ := x
  obtain ⟨_, t⟩ := y
  obtain ⟨rfl, related⟩ := wrote
  cases answer with
  | error e => exact ⟨rfl, related⟩
  | ok _ => exact ⟨rfl, simulates.report related _⟩

theorem written (related : R codes s t) (source code : String) :
    Agree (R codes) (if settings.write then Compile.writeCode b source code s else (.ok (), s))
      (if settings.write then Compile.writeCode b' source code t else (.ok (), t)) := by
  split
  · exact simulates.writeCode related source code
  · exact ⟨rfl, related⟩

theorem reporting {x : Except Failure Unit × σ} {y : Except Failure Unit × τ}
    (agree : Agree (R codes) x y) : R codes (Compile.reporting b x) (Compile.reporting b' y) := by
  obtain ⟨answer, s⟩ := x
  obtain ⟨_, t⟩ := y
  obtain ⟨rfl, related⟩ := agree
  cases answer with
  | error e => exact simulates.report related _
  | ok _ => exact related

theorem bootstrap (related : R codes s t) (path : String) :
    Agree (R codes) (Compile.bootstrap b path s) (Compile.bootstrap b' path t) := by
  have headed := simulates.header related
  unfold Compile.bootstrap
  generalize b.header s = x at headed ⊢
  generalize b'.header t = y at headed ⊢
  obtain ⟨answer, s⟩ := x
  obtain ⟨_, t⟩ := y
  obtain ⟨rfl, related⟩ := headed
  cases answer with
  | error e => exact ⟨rfl, related⟩
  | ok header => exact simulates.writeFile related _ header

theorem compile (related : R codes s t) (mode : Mode) (source : String) :
    Agree (R (codes ++ Compile.sourceCodes b settings mode s source))
      (Compile.compile b settings mode source s) (Compile.compile b' settings mode source t) := by
  have begun := simulates.report related (.info ("Compiling '" ++ source ++ "'..."))
  unfold Compile.sourceCodes Compile.compile Compile.codeOf
  generalize b.report (.info ("Compiling '" ++ source ++ "'...")) s = s at begun ⊢
  generalize b'.report (.info ("Compiling '" ++ source ++ "'...")) t = t at begun ⊢
  dsimp only
  rw [simulates.directory, simulates.files begun]
  cases (b.files s).readText b.directory source with
  | error e => exact ⟨rfl, by rwa [List.append_nil]⟩
  | ok text =>
    have offered := simulates.translate begun text mode
    dsimp only
    generalize b.translate text mode s = x at offered ⊢
    generalize b'.translate text mode t = y at offered ⊢
    obtain ⟨answer, s⟩ := x
    obtain ⟨_, t⟩ := y
    obtain ⟨rfl, offered⟩ := offered
    cases answer with
    | error e => exact ⟨rfl, by rwa [List.append_nil]⟩
    | ok code =>
      have written := simulates.written settings offered source code
      dsimp only
      generalize (if settings.write then Compile.writeCode b source code s else (.ok (), s)) = x
        at written ⊢
      generalize (if settings.write then Compile.writeCode b' source code t else (.ok (), t)) = y
        at written ⊢
      obtain ⟨answer, s⟩ := x
      obtain ⟨_, t⟩ := y
      obtain ⟨rfl, written⟩ := written
      cases answer with
      | error e => exact ⟨rfl, by rwa [List.append_nil]⟩
      | ok _ =>
        refine ⟨rfl, ?_⟩
        dsimp only [Except.toOption, Option.toList]
        split
        · exact simulates.execute written code
        · rwa [List.append_nil]

theorem compileFile (related : R codes s t) (mode : Mode) (source : String) :
    R (codes ++ Compile.sourceCodes b settings mode s source)
      (Compile.compileFile b settings mode source s)
      (Compile.compileFile b' settings mode source t) :=
  simulates.reporting (simulates.compile settings related mode source)

theorem compileDirectory (related : R codes s t) (d : Except Failure Compile.ModuleDirectory) :
    R (codes ++ Compile.directoryCodes b settings s d) (Compile.compileDirectory b settings s d)
      (Compile.compileDirectory b' settings t d) := by
  cases d with
  | error e =>
    rw [Compile.directoryCodes, List.append_nil]
    exact simulates.report related _
  | ok d =>
    have begun := simulates.reporting (simulates.bootstrap related d.path)
    exact related_foldl (R := R)
      (fun related => simulates.compileFile settings related .module) begun d.sources

theorem compilePath (related : R codes s t) (path : String) :
    R (codes ++ Compile.pathCodes b settings s path) (Compile.compilePath b settings path s)
      (Compile.compilePath b' settings path t) := by
  unfold Compile.compilePath Compile.pathCodes
  rw [simulates.directory, simulates.files related]
  split
  · exact simulates.compileFile settings related .file path
  split
  · rw [Compile.compileModule, Compile.compileModule, simulates.directory, simulates.files related]
    exact related_foldl (R := R) (simulates.compileDirectory settings) related _
  · rw [List.append_nil]
    exact simulates.report related _

end Backend.Simulates

end SessionShell
