import SessionShell.Proofs.Compile.Containment

/-! What fails is reported where it fails, and all the rest is done as if nothing had failed. The jobs
of a module stand in an order of their own, by the trails of their directories, so that two runs
have the jobs that they share in the same order. -/

namespace SessionShell.Compile

/-- The place of a job in the walk: the trail of its directory, and behind that an empty text and the
name if it is a source. -/
inductive Keyed (root : String) : List String → Job → Prop
  | bootstrap {trail : List String} (names : ∀ name ∈ trail, Path.IsName name) :
      Keyed root trail (.bootstrap (Path.along root trail))
  | source {trail : List String} {name : String} (names : ∀ name ∈ trail, Path.IsName name)
      (isName : Path.IsName name) :
      Keyed root (trail ++ ["", name]) (.source (Path.join (Path.along root trail) name))

/-- One job stands in front of the other. -/
def Ahead (root : String) (job later : Job) : Prop :=
  ∃ key key', Keyed root key job ∧ Keyed root key' later ∧ key < key'

section Order

variable {root : String}

theorem Keyed.unique (written : root ≠ "") {key key' : List String} {job : Job}
    (keyed : Keyed root key job) (keyed' : Keyed root key' job) : key = key' := by
  cases keyed with
  | bootstrap names =>
    generalize path : Path.along root key = there at keyed'
    cases keyed' with
    | bootstrap names' => exact Path.along_injective written names names' path
  | @source trail name names isName =>
    generalize path : Path.join (Path.along root trail) name = there at keyed'
    cases keyed' with
    | @source trail' name' names' isName' =>
      have all (trail : List String) (name : String) (names : ∀ name ∈ trail, Path.IsName name)
          (isName : Path.IsName name) : ∀ other ∈ trail ++ [name], Path.IsName other :=
        List.forall_mem_append.mpr ⟨names, List.forall_mem_singleton.mpr isName⟩
      rw [← Path.along_concat, ← Path.along_concat] at path
      have same := Path.along_injective written (all trail name names isName)
        (all trail' name' names' isName') path
      obtain ⟨rfl, last⟩ := List.append_inj' same rfl
      rw [List.singleton_inj.mp last]

theorem lt_append_of_lt {key later : List String} (before : key < later) (back : List String) :
    key < later ++ back := by
  cases back with
  | nil => rwa [List.append_nil]
  | cons name back =>
    have further := List.Lex.append_left (· < ·) (.nil : List.Lex (· < ·) [] (name :: back)) later
    rw [List.append_nil] at further
    exact before.trans further

theorem source_lt_of_lt {trail later : List String} (before : trail < later)
    (names : ∀ name ∈ later, Path.IsName name) (name : String) : trail ++ ["", name] < later := by
  by_cases within : trail <+: later
  · obtain ⟨rest, rfl⟩ := within
    obtain ⟨first, more, rfl⟩ : ∃ first more, rest = first :: more := by
      apply List.exists_cons_of_ne_nil
      rintro rfl
      rw [List.append_nil] at before
      exact lt_irrefl _ before
    have isName := names first (List.mem_append_right _ List.mem_cons_self)
    have smaller : "" < first := by
      obtain ⟨c, cs, text⟩ := List.exists_cons_of_ne_nil isName.divided.named
      rw [String.lt_iff_toList_lt, text]
      exact List.nil_lt_cons c cs
    exact List.Lex.append_left _ (.rel smaller) trail
  · exact append_lt_of_lt before within _

theorem eq_of_ahead (written : root ≠ "") {jobs others : List Job}
    (ordered : jobs.Pairwise (Ahead root)) (ordered' : others.Pairwise (Ahead root))
    (same : ∀ job, job ∈ jobs ↔ job ∈ others) : jobs = others := by
  have never {job later : Job} (ahead : Ahead root job later) (behind : Ahead root later job) :
      False := by
    obtain ⟨key, key', keyed, keyed', before⟩ := ahead
    obtain ⟨other, other', keyed₂, keyed₂', after⟩ := behind
    rw [keyed₂.unique written keyed', keyed₂'.unique written keyed] at after
    exact lt_asymm before after
  have irrefl : Std.Irrefl (Ahead root) := ⟨fun job ahead => never ahead ahead⟩
  have antisymm : Std.Antisymm (Ahead root) :=
    ⟨fun job later ahead behind => (never ahead behind).elim⟩
  exact ordered.eq_of_mem_iff ordered' same

end Order

namespace Build

variable (w : Build)

def survivors : List Job :=
  w.jobs.filter fun job => (w.failure? job).isNone

/-- The job finds in the other build what it finds in this one. -/
def Agrees (other : Build) : Job → Prop
  | .unlisted _ => True
  | .bootstrap _ => other.answers.header = w.answers.header
  | .source path => ∃ text, w.files.readText w.directory path = .ok text ∧
      other.files.readText other.directory path = .ok text ∧
      other.answers.translate text .module = w.answers.translate text .module

variable {w}

theorem failure?_eq_none {job : Job} :
    w.failure? job = none ↔ ∃ writes, w.result job = .ok writes := by
  unfold failure?
  cases w.result job <;> simp

theorem mem_survivors {job : Job} :
    job ∈ w.survivors ↔ job ∈ w.jobs ∧ w.failure? job = none := by
  rw [survivors, List.mem_filter, Option.isNone_iff_eq_none]

theorem result_eq_of_agrees {other : Build} {job : Job} (sameWrite : other.write = w.write)
    (agrees : w.Agrees other job) (fine : w.failure? job = none)
    (fine' : other.failure? job = none) :
    other.result job = w.result job ∧ other.requests job = w.requests job := by
  obtain ⟨writes, ends⟩ := failure?_eq_none.mp fine
  obtain ⟨writes', ends'⟩ := failure?_eq_none.mp fine'
  have asked : other.inquiries job = w.inquiries job ∧ other.praise job = w.praise job := by
    cases job with
    | unlisted f => exact ⟨rfl, rfl⟩
    | bootstrap path => exact ⟨rfl, rfl⟩
    | source path =>
      obtain ⟨text, read, read', -⟩ := agrees
      rw [inquiries, inquiries, read, read', praise, praise, sameWrite]
      exact ⟨rfl, rfl⟩
  have same : other.result job = w.result job := by
    rw [ends, ends']
    cases job with
    | unlisted f => cases ends
    | bootstrap path =>
      change other.answers.header = w.answers.header at agrees
      simp only [result, agrees] at ends ends'
      cases header : w.answers.header with
      | error e =>
        rw [header] at ends
        cases ends
      | ok header' =>
        rw [header] at ends ends'
        rw [(writing_eq_ok.mp ends).2, (writing_eq_ok.mp ends').2]
    | source path =>
      obtain ⟨text, read, read', translated⟩ := agrees
      simp only [result, read, read', translated, sameWrite] at ends ends'
      cases code : w.answers.translate text .module with
      | error e =>
        rw [code] at ends
        cases ends
      | ok code' =>
        rw [code] at ends ends'
        dsimp only at ends ends'
        split at ends
        · rename_i write
          rw [if_pos write] at ends'
          rw [(writing_eq_ok.mp ends).2, (writing_eq_ok.mp ends').2]
        · rename_i write
          rw [if_neg write] at ends'
          cases ends
          cases ends'
          rfl
  refine ⟨same, ?_⟩
  rw [requests, requests, asked.1, asked.2, same]

theorem complaints_requests (job : Job) :
    (w.requests job).filterMap Request.complaint? = ((w.failure? job).map Failure.message).toList := by
  have none : (w.inquiries job).filterMap Request.complaint? = [] ∧
      (w.praise job).filterMap Request.complaint? = [] := by
    cases job with
    | unlisted f => exact ⟨rfl, rfl⟩
    | bootstrap path => exact ⟨rfl, rfl⟩
    | source path =>
      constructor
      · rw [inquiries]
        cases w.files.readText w.directory path <;> rfl
      · rw [praise]
        split <;> rfl
  rw [requests, failure?, List.filterMap_append, none.1]
  cases w.result job with
  | error f => rfl
  | ok writes => exact none.2

theorem complaints_flatMap (jobs : List Job) :
    (jobs.flatMap w.requests).filterMap Request.complaint? =
      (jobs.filterMap w.failure?).map Failure.message := by
  induction jobs with
  | nil => rfl
  | cons job jobs ih =>
    rw [List.flatMap_cons, List.filterMap_append, complaints_requests, ih]
    cases failed : w.failure? job <;> simp [failed]

variable (unlinked : w.files.Unlinked w.directory w.root)
include unlinked

theorem keyed_of_mem {trail : List String}
    (reaches : Reaches (barred w.locked (w.files.list w.directory)) w.root trail) {job : Job}
    (member : job ∈
      jobsOf (item (barred w.locked (w.files.list w.directory)) (Path.along w.root trail)))
    (fine : w.failure? job = none) :
    w.root ≠ "" ∧ ∃ back, (back = [] ∨ ∃ name, back = ["", name]) ∧
      Keyed w.root (trail ++ back) job := by
  have names := names_of_reaches unlinked.named reaches
  rcases jobsOf_item unlinked reaches with ⟨f, only⟩ | ⟨place, sources, written, -, -, proper, all⟩
  · rw [only] at member
    rw [List.mem_singleton.mp member] at fine
    cases fine
  · rw [all] at member
    refine ⟨written, ?_⟩
    rcases List.mem_cons.mp member with rfl | member
    · refine ⟨[], .inl rfl, ?_⟩
      rw [List.append_nil]
      exact .bootstrap names
    · obtain ⟨name, isSource, rfl⟩ := List.mem_map.mp member
      exact ⟨["", name], .inr ⟨name, rfl⟩, .source names (proper name isSource).1⟩

theorem written_of_mem_survivors {job : Job} (member : job ∈ w.survivors) : w.root ≠ "" := by
  obtain ⟨among, fine⟩ := mem_survivors.mp member
  obtain ⟨trails, itinerary, jobs⟩ := jobs_eq unlinked
  rw [jobs] at among
  obtain ⟨trail, isTrail, among⟩ := List.mem_flatMap.mp among
  exact (keyed_of_mem unlinked ((itinerary.complete trail).mp isTrail) among fine).1

theorem survivors_ordered : w.survivors.Pairwise (Ahead w.root) := by
  obtain ⟨trails, itinerary, jobs⟩ := jobs_eq unlinked
  rw [survivors, jobs, List.filter_flatMap]
  refine List.pairwise_flatMap.mpr ⟨fun trail isTrail => ?_, ?_⟩
  · have reaches := (itinerary.complete trail).mp isTrail
    have names := names_of_reaches unlinked.named reaches
    rcases jobsOf_item unlinked reaches with ⟨f, only⟩ | ⟨place, sources, -, -, sorted, proper, all⟩
    · rw [only]
      exact (List.pairwise_singleton _ _).filter _
    · rw [all]
      refine (List.pairwise_cons.mpr ⟨?_, List.pairwise_map.mpr ?_⟩).filter _
      · intro later member
        obtain ⟨name, isSource, rfl⟩ := List.mem_map.mp member
        refine ⟨trail, _, .bootstrap names, .source names (proper name isSource).1, ?_⟩
        have further := List.Lex.append_left (· < ·) (.nil : List.Lex (· < ·) [] ["", name]) trail
        rwa [List.append_nil] at further
      · refine sorted.imp_of_mem fun {one other} isSource isSource' smaller => ?_
        exact ⟨_, _, .source names (proper one isSource).1, .source names (proper other isSource').1,
          List.Lex.append_left _ (.cons (.rel smaller)) trail⟩
  · refine itinerary.increasing.imp_of_mem fun {trail later} isTrail isLater before => ?_
    intro job member job' member'
    obtain ⟨among, fine⟩ := List.mem_filter.mp member
    obtain ⟨among', fine'⟩ := List.mem_filter.mp member'
    have reaches' := (itinerary.complete later).mp isLater
    obtain ⟨-, back, last, keyed⟩ := keyed_of_mem unlinked ((itinerary.complete trail).mp isTrail)
      among (Option.isNone_iff_eq_none.mp fine)
    obtain ⟨-, back', -, keyed'⟩ := keyed_of_mem unlinked reaches' among'
      (Option.isNone_iff_eq_none.mp fine')
    refine ⟨_, _, keyed, keyed', lt_append_of_lt ?_ back'⟩
    rcases last with rfl | ⟨name, rfl⟩
    · rwa [List.append_nil]
    · exact source_lt_of_lt before (names_of_reaches unlinked.named reaches') name

theorem survivors_eq {other : Build} (unlinked' : other.files.Unlinked other.directory other.root)
    (sameRoot : other.root = w.root) (fine : ∀ job ∈ other.jobs, other.failure? job = none)
    (among : ∀ job ∈ w.survivors, job ∈ other.jobs) :
    w.survivors = other.jobs.filter (· ∈ w.survivors) := by
  by_cases any : w.survivors = []
  · simp [any]
  obtain ⟨first, more, isFirst⟩ := List.exists_cons_of_ne_nil any
  have written := written_of_mem_survivors unlinked (isFirst ▸ List.mem_cons_self : first ∈ _)
  have all : other.survivors = other.jobs :=
    List.filter_eq_self.mpr fun job member => by rw [fine job member]; rfl
  have ordered := survivors_ordered unlinked'
  rw [all, sameRoot] at ordered
  refine eq_of_ahead written (survivors_ordered unlinked) (ordered.filter _) fun job => ?_
  rw [List.mem_filter, decide_eq_true_iff]
  exact ⟨fun member => ⟨among job member, member⟩, And.right⟩

/-- A build with the same root in which nothing fails, and in which the jobs that survive in the first
one are jobs too and find the same. -/
structure Faultless (w other : Build) : Prop where
  unlinked : other.files.Unlinked other.directory other.root
  root : other.root = w.root
  write : other.write = w.write
  fine : ∀ job ∈ other.jobs, other.failure? job = none
  shared : ∀ job ∈ w.survivors, job ∈ other.jobs ∧ w.Agrees other job

/-- What becomes of a job between two states, each with what was asked for up to it: it asks for what
it is said to, and a failed one leaves the files as they are. -/
structure Contains {σ : Type} (w : Build) (b : Backend σ) (job : Job)
    (before after : σ × List Request) : Prop where
  asked : after.2 = before.2 ++ w.requests job
  failed : ∀ f, w.result job = .error f → b.files after.1 = b.files before.1
  wrote : ∀ writes, w.result job = .ok writes →
    b.files after.1 = (b.files before.1).attempts w.directory writes ∧
      ∀ write ∈ writes,
        (b.files before.1).write w.directory write.1 write.2 = .ok (b.files after.1)

/-- A job is contained wherever nothing but products of the build stands besides what was there when
the build began. -/
theorem contains_perform {σ : Type} {b : Backend σ} (gives : b.Gives w.answers)
    (place : b.directory = w.directory) {job : Job} (located : job.Located w.files w.directory)
    {before : σ × List Request} (recompiled : w.files.Recompiled (b.files before.1)) :
    w.Contains b job before (job.perform b.recording w.settings before) := by
  obtain ⟨asked, ends, -⟩ := perform_located gives place unlinked.inside located recompiled before.2
  have next : job.perform b.recording w.settings before =
      (job.perform b w.settings before.1, before.2 ++ w.requests job) := asked
  rw [next]
  constructor
  case asked => rfl
  case failed =>
    intro f failed
    rw [ends, Build.writes, failed]
    rfl
  case wrote =>
    intro writes result
    have again : (w.on (b.files before.1)).result job = .ok writes :=
      (Build.result_on recompiled located).1.trans result
    rw [ends, Build.writes, result]
    exact ⟨rfl, fun write member => Build.write_eq_of_result again member⟩

end Build

/-- A run of a build, job by job. What it asks for is what its jobs ask for, among which is one
complaint for each failure. -/
structure FailuresContained {σ : Type} (b : Backend σ) (w : Build) (s : σ)
    (run : σ × List Request) : Prop where
  jobs : run = w.jobs.foldl (Job.perform b.recording w.settings) (s, [])
  unrecorded : run.1 = compileTree b w.settings w.tree s
  asked : run.2 = w.jobs.flatMap w.requests
  complaints :
    run.2.filterMap Request.complaint? = (w.jobs.filterMap w.failure?).map Failure.message
  contained : ∀ front job back, w.jobs = front ++ job :: back →
    let before := front.foldl (Job.perform b.recording w.settings) (s, [])
    w.Contains b job before (job.perform b.recording w.settings before)
  survivors_eq : ∀ other, w.Faultless other → w.survivors = other.jobs.filter (· ∈ w.survivors)
  survivors_same : ∀ other, w.Faultless other → ∀ job ∈ w.survivors,
    other.result job = w.result job ∧ other.requests job = w.requests job

/-- A module is compiled without running it, by a backend whose answers depend on nothing but what it
is asked. Each job that fails is reported once, where it fails, and leaves the files as they are.
Each other job asks for and writes what it would on the first files. So in a build in which nothing
fails the jobs that do not fail here come in the same order and to the same, provided that they find
the same there. -/
theorem failures_contained {σ : Type} {b : Backend σ} {w : Build} (gives : b.Gives w.answers)
    (place : b.directory = w.directory) {s : σ} (found : b.files s = w.files)
    (unlinked : w.files.Unlinked w.directory w.root) :
    FailuresContained b w s (compileTree b.recording w.settings w.tree (s, [])) := by
  let step := Job.perform b.recording w.settings
  let run := compileTree b.recording w.settings w.tree (s, [])
  have located : ∀ job ∈ w.jobs, job.Located w.files w.directory :=
    fun job member => Build.located_of_mem_jobs unlinked member
  have start : FileSystem.Recompiled w.files (b.files s) := found ▸ .refl w.files
  have split : run = w.jobs.foldl step (s, []) := compileTree_eq _ _ _ _
  obtain ⟨recorded, -⟩ := foldl_perform gives place unlinked.inside located start []
  have log : run.2 = w.jobs.flatMap w.requests := by
    rw [split, recorded, List.nil_append]
  refine {
    jobs := split
    unrecorded := ?unrecorded
    asked := log
    complaints := ?complaints
    contained := ?contained
    survivors_eq := ?survivors_eq
    survivors_same := ?survivors_same }
  case unrecorded =>
    change run.1 = _
    rw [split, recorded, compileTree_eq]
    rfl
  case complaints =>
    change run.2.filterMap _ = _
    rw [log, Build.complaints_flatMap]
  case contained =>
    intro front job back parts before
    have here : job ∈ w.jobs := parts ▸ List.mem_append_right _ List.mem_cons_self
    have earlier : ∀ job ∈ front, job.Located w.files w.directory := fun job member =>
      located job (parts ▸ List.mem_append_left _ member)
    obtain ⟨first, -, recompiled⟩ := foldl_perform gives place unlinked.inside earlier start []
    have reached : before.1 = front.foldl (Job.perform b w.settings) s := congrArg Prod.fst first
    rw [← reached] at recompiled
    exact Build.contains_perform unlinked gives place (located job here) recompiled
  case survivors_eq =>
    intro other faultless
    exact Build.survivors_eq unlinked faultless.unlinked faultless.root faultless.fine
      fun job member => (faultless.shared job member).1
  case survivors_same =>
    intro other faultless job member
    obtain ⟨among, agrees⟩ := faultless.shared job member
    exact Build.result_eq_of_agrees faultless.write agrees (Build.mem_survivors.mp member).2
      (faultless.fine job among)

theorem failures_contained_mixed :
    let whole : List (Place × Entry) := [(["m"], .directory), (["m", "a"], .directory),
      (["m", "b"], .directory), (["m", "b", "x.hsk"], .file (Text.Utf8.encode "echo x") false),
      (["m", "b", "y.hsk"], .file (Text.Utf8.encode "echo y") false), (["m", "c"], .directory),
      (["m", "c", "z.hsk"], .file (Text.Utf8.encode "echo z") false)]
    let broken : List (Place × Entry) := [(["m"], .directory), (["m", "a"], .directory),
      (["m", "b"], .directory), (["m", "b", "x.hsk"], .file (Text.Utf8.encode "echo '") false),
      (["m", "b", "y.hsk"], .file (Text.Utf8.encode "echo y") false), (["m", "c"], .directory),
      (["m", "c", "__bootstrap__"], .installed "cat"), (["m", "c", "z.hsk"], .file [0xFF] false)]
    let m := Machine.holding broken
    let answers : Answers := ⟨Checked.translate false, .ok Checked.header⟩
    let locked (path : String) : Option IoError := if path = "m/a" then some .permission else none
    let w : Build := ⟨m.files, [], "m", locked, answers, true⟩
    let other : Build := ⟨(Machine.holding whole).files, [], "m", fun _ => none, answers, true⟩
    let s : Frontend Value ShellContext := { host := ⟨m, false⟩ }
    let run := compileTree (Frontend.builtin m).recording w.settings w.tree (s, [])
    w.survivors = [.bootstrap "m", .bootstrap "m/b", .source "m/b/y.hsk"] ∧
      w.survivors = other.jobs.filter (· ∈ w.survivors) ∧
      run.2.filterMap Request.complaint? =
        ["failed to read directory m/a: Permission denied (os error 13)",
          "failed to compile m/b/x.hsk: incomplete input: unterminated quote",
          "failed to write m/c/__bootstrap__: Permission denied (os error 13)",
          "failed to read m/c/z.hsk: stream did not contain valid UTF-8"] := by
  intro whole broken m answers locked w other s run
  have sound : (Machine.holding broken).files.Unlinked [] "m" :=
    FileSystem.unlinked_of_plain (FileSystem.plain_of_entries (by decide +kernel))
      (FileSystem.named_of_entries (by decide +kernel)) [] "m"
  have sound' : (Machine.holding whole).files.Unlinked [] "m" :=
    FileSystem.unlinked_of_plain (FileSystem.plain_of_entries (by decide +kernel))
      (FileSystem.named_of_entries (by decide +kernel)) [] "m"
  have survivors : w.survivors = [.bootstrap "m", .bootstrap "m/b", .source "m/b/y.hsk"] := by
    decide +kernel
  have contained : FailuresContained _ w s run :=
    failures_contained (Frontend.builtin_gives m) (w := w) rfl (s := s) rfl sound
  have faultless : w.Faultless other := by
    refine ⟨sound', rfl, rfl, by decide +kernel, fun job member => ?_⟩
    rw [survivors] at member
    simp only [List.mem_cons, List.not_mem_nil, or_false] at member
    rcases member with rfl | rfl | rfl
    · exact ⟨by decide +kernel, rfl⟩
    · exact ⟨by decide +kernel, rfl⟩
    · exact ⟨by decide +kernel, "echo y", by decide +kernel, by decide +kernel, rfl⟩
  refine ⟨survivors, contained.survivors_eq other faultless, contained.complaints.trans ?_⟩
  decide +kernel

end SessionShell.Compile
