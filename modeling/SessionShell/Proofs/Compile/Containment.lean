import SessionShell.Proofs.Compile.Jobs
import SessionShell.Proofs.Compile.Recompiled

/-! Jobs of a module do not get into each other's way. What one of them writes is read by none, so that
each comes to what it comes to on the files as they were before the first. -/

namespace SessionShell.Compile

/-- The job is done in a directory without links. -/
inductive Job.Located (fs : FileSystem) (directory : Place) : Job → Prop
  | unlisted (failure : Failure) : Located fs directory (.unlisted failure)
  | bootstrap {path : String} {place : Place} (opens : fs.Opens directory path place) :
      Located fs directory (.bootstrap path)
  | source {path name : String} {place : Place} (opens : fs.Opens directory path place)
      (isName : Path.IsName name) (source : isSource name = true) :
      Located fs directory (.source (Path.join path name))

namespace Build

variable {w : Build}

theorem writing_eq_ok {path text : String} {writes : List FileWrite} :
    w.writing path text = .ok writes ↔
      (∃ files, w.files.write w.directory path (Text.Utf8.encode text) = .ok files) ∧
        writes = [(path, Text.Utf8.encode text)] := by
  unfold writing
  cases w.files.write w.directory path (Text.Utf8.encode text) with
  | error e => simp
  | ok files => simp [eq_comm]

/-- What a job writes is written to a product of its directory. -/
inductive Target : Job → String → Prop
  | bootstrap (path : String) : Target (.bootstrap path) (Path.join path bootstrapFile)
  | source (path : String) : Target (.source path) (destination path)

theorem eq_of_result {job : Job} {writes : List FileWrite} (ends : w.result job = .ok writes)
    {write : FileWrite} (member : write ∈ writes) :
    Target job write.1 ∧ writes = [write] ∧
      ∃ files, w.files.write w.directory write.1 write.2 = .ok files := by
  have only {path text : String} (ends : w.writing path text = .ok writes) :
      write.1 = path ∧ writes = [write] ∧
        ∃ files, w.files.write w.directory write.1 write.2 = .ok files := by
    obtain ⟨written, rfl⟩ := writing_eq_ok.mp ends
    obtain rfl := List.mem_singleton.mp member
    exact ⟨rfl, rfl, written⟩
  cases job with
  | unlisted f => cases ends
  | bootstrap path =>
    unfold result at ends
    dsimp only at ends
    split at ends
    · cases ends
    · obtain ⟨target, written⟩ := only ends
      exact ⟨target ▸ .bootstrap path, written⟩
  | source path =>
    unfold result at ends
    dsimp only at ends
    split at ends
    · cases ends
    split at ends
    · cases ends
    split at ends
    · obtain ⟨target, written⟩ := only ends
      exact ⟨target ▸ .source path, written⟩
    · cases ends
      cases member

theorem write_eq_of_result {job : Job} {writes : List FileWrite} (ends : w.result job = .ok writes)
    {write : FileWrite} (member : write ∈ writes) :
    w.files.write w.directory write.1 write.2 = .ok (w.files.attempts w.directory writes) := by
  obtain ⟨-, rfl, files, written⟩ := eq_of_result ends member
  rw [FileSystem.attempts_singleton, FileSystem.attempt, written]

theorem yields_of_mem_writes
    (inside : ∀ place, w.files.entry? place ≠ none → w.files.entry? place.dropLast = some .directory)
    {job : Job} (located : job.Located w.files w.directory) {write : FileWrite}
    (member : write ∈ w.writes job) : w.files.Yields w.directory write.1 := by
  have target : Target job write.1 := by
    unfold writes at member
    split at member
    · cases member
    · rename_i writes ends
      exact (eq_of_result ends member).1
  generalize write.1 = path at target
  cases target with
  | bootstrap path =>
    cases located with | bootstrap opens =>
    intro found lands
    obtain ⟨rfl, isName⟩ := opens.landing?_join inside (.inr bootstrap_isName) lands
    exact .intro opens.isDirectory isName (by decide +kernel)
  | source path =>
    cases located with | source opens isName source =>
    intro found lands
    rw [destination_join isName opens.written] at lands
    have goes := destination_name isName source
    obtain ⟨rfl, isName'⟩ := opens.landing?_join inside (goes.imp_right And.left) lands
    refine .intro opens.isDirectory isName' ?_
    have extension := (goes.resolve_left isName'.noDots).2
    rw [isSource, extension]
    decide

def on (w : Build) (files : FileSystem) : Build :=
  { w with files }

variable {gs : FileSystem} (recompiled : FileSystem.Recompiled w.files gs)
include recompiled

theorem writing_on {path text : String} (leads : gs.place w.directory path .create =
      w.files.place w.directory path .create) :
    (w.on gs).writing path text = w.writing path text := by
  have same := FileSystem.write_congr recompiled.terrain leads (Text.Utf8.encode text)
  have here : (w.on gs).files.write (w.on gs).directory path (Text.Utf8.encode text) =
      gs.write w.directory path (Text.Utf8.encode text) := rfl
  unfold writing
  rw [here]
  generalize gs.write w.directory path (Text.Utf8.encode text) = one at same ⊢
  generalize w.files.write w.directory path (Text.Utf8.encode text) = other at same ⊢
  cases one <;> cases other <;> cases same <;> rfl

theorem result_on {job : Job} (located : job.Located w.files w.directory) :
    (w.on gs).result job = w.result job ∧ (w.on gs).requests job = w.requests job := by
  cases located with
  | unlisted f => exact ⟨rfl, rfl⟩
  | @bootstrap path place opens =>
    have written (header : String) := @writing_on w gs recompiled _ header
      (opens.place_eq recompiled.terrain (.inr bootstrap_isName) .create)
    have same : (w.on gs).result (.bootstrap path) = w.result (.bootstrap path) := by
      unfold result
      simp only [written]
      rfl
    exact ⟨same, by rw [requests, requests, same]; rfl⟩
  | @source path name place opens isName source =>
    have read := recompiled.readText_eq opens isName source
    have goes := (destination_name isName source).imp_right And.left
    have written (code : String) := @writing_on w gs recompiled _ code
      (opens.place_eq recompiled.terrain goes .create)
    rw [← destination_join isName opens.written] at written
    have same : (w.on gs).result (.source (Path.join path name)) =
        w.result (.source (Path.join path name)) := by
      unfold result
      simp only [written]
      simp only [on, read]
      rfl
    refine ⟨same, ?_⟩
    rw [requests, requests, same]
    simp only [inquiries, on, read]
    rfl

end Build

end SessionShell.Compile

namespace SessionShell.Compile

section Tree

variable {fs : FileSystem} {directory : Place} {root : String} {locked : String → Option IoError}

theorem opens_of_reaches (unlinked : fs.Unlinked directory root) {trail : List String}
    (reaches : Reaches (fs.list directory) root trail) {place : Place}
    (leads : fs.place directory (Path.along root trail) .find = .ok place)
    (isDirectory : fs.entry? place = some .directory) :
    root ≠ "" ∧ fs.Opens directory (Path.along root trail) place := by
  obtain ⟨start, begun, rfl⟩ := (place_of_reaches unlinked.named reaches).1 place leads
  refine ⟨FileSystem.ne_empty_of_place begun, leads, isDirectory, fun name target link => ?_⟩
  rw [List.append_assoc] at link
  exact unlinked.noLink start begun _ target link

theorem item_eq (unlinked : fs.Unlinked directory root) {trail : List String}
    (reaches : Reaches (barred locked (fs.list directory)) root trail) :
    (∃ f, item (barred locked (fs.list directory)) (Path.along root trail) = .error f) ∨
      ∃ (place : Place) (names : List String), root ≠ "" ∧
        fs.Opens directory (Path.along root trail) place ∧ names.Pairwise (· < ·) ∧
        (∀ name ∈ names, Path.IsName name ∧ isSource name = true) ∧
        item (barred locked (fs.list directory)) (Path.along root trail) =
          .ok ⟨Path.along root trail, names.map (Path.join (Path.along root trail))⟩ := by
  unfold item
  cases listed : barred locked (fs.list directory) (Path.along root trail) with
  | error e => exact .inl ⟨_, rfl⟩
  | ok entries =>
    obtain ⟨place, leads, isDirectory, rfl⟩ :=
      FileSystem.list_eq_ok.mp (barred_eq_ok.mp listed).2
    obtain ⟨written, opens⟩ :=
      opens_of_reaches unlinked (reaches_barred_iff.mp reaches).1 leads isDirectory
    refine .inr ⟨place, sourceNames (Path.along root trail) (fs.children place), written, opens,
      sourceNames_increasing _, fun name member => ?_, by rw [← sourcesOf_eq]⟩
    obtain ⟨⟨entry, stands, -⟩, source⟩ := mem_sourceNames.mp member
    have isName := unlinked.named.isName stands
    exact ⟨isName, isSource_join isName opens.written ▸ source⟩

theorem jobsOf_item (unlinked : fs.Unlinked directory root) {trail : List String}
    (reaches : Reaches (barred locked (fs.list directory)) root trail) :
    (∃ f, jobsOf (item (barred locked (fs.list directory)) (Path.along root trail)) =
        [.unlisted f]) ∨
      ∃ (place : Place) (names : List String), root ≠ "" ∧
        fs.Opens directory (Path.along root trail) place ∧ names.Pairwise (· < ·) ∧
        (∀ name ∈ names, Path.IsName name ∧ isSource name = true) ∧
        jobsOf (item (barred locked (fs.list directory)) (Path.along root trail)) =
          .bootstrap (Path.along root trail) ::
            names.map fun name => .source (Path.join (Path.along root trail) name) := by
  rcases item_eq unlinked reaches with ⟨f, failed⟩ | ⟨place, names, written, opens, sorted, proper, all⟩
  · exact .inl ⟨f, by rw [failed, jobsOf]⟩
  · refine .inr ⟨place, names, written, opens, sorted, proper, ?_⟩
    rw [all, jobsOf, List.map_map]
    rfl

end Tree

namespace Build

variable {w : Build} (unlinked : w.files.Unlinked w.directory w.root)
include unlinked

theorem jobs_eq :
    ∃ trails, Itinerary (barred w.locked (w.files.list w.directory)) w.root trails ∧
      w.jobs = trails.flatMap fun trail =>
        jobsOf (item (barred w.locked (w.files.list w.directory)) (Path.along w.root trail)) := by
  obtain ⟨trails, itinerary, walked⟩ := walk_barred unlinked.named
  refine ⟨trails, itinerary, ?_⟩
  rw [jobs, tree, walked _ (Nat.lt_succ_self _), List.flatMap_map]

theorem located_of_mem_jobs {job : Job} (member : job ∈ w.jobs) :
    job.Located w.files w.directory := by
  obtain ⟨trails, itinerary, jobs⟩ := jobs_eq unlinked
  rw [jobs] at member
  obtain ⟨trail, isTrail, member⟩ := List.mem_flatMap.mp member
  rcases jobsOf_item unlinked ((itinerary.complete trail).mp isTrail) with
    ⟨f, only⟩ | ⟨place, names, -, opens, -, proper, all⟩
  · rw [only] at member
    rw [List.mem_singleton.mp member]
    exact .unlisted f
  · rw [all] at member
    rcases List.mem_cons.mp member with rfl | member
    · exact .bootstrap opens
    · obtain ⟨name, isName, rfl⟩ := List.mem_map.mp member
      exact .source opens (proper name isName).1 (proper name isName).2

end Build

section Run

variable {σ : Type} {b : Backend σ} {w : Build} (gives : b.Gives w.answers)
  (place : b.directory = w.directory)
  (inside : ∀ place, w.files.entry? place ≠ none → w.files.entry? place.dropLast = some .directory)
include gives place inside

theorem perform_located {job : Job} (located : job.Located w.files w.directory) {s : σ}
    (recompiled : FileSystem.Recompiled w.files (b.files s)) (log : List Request) :
    job.perform b.recording w.settings (s, log) =
        (job.perform b w.settings s, log ++ w.requests job) ∧
      b.files (job.perform b w.settings s) = (b.files s).attempts w.directory (w.writes job) ∧
      FileSystem.Recompiled w.files (b.files (job.perform b w.settings s)) := by
  -- the job finds other files than the first, but comes to the same on them
  obtain ⟨result, requests⟩ := Build.result_on recompiled located
  have gives' : b.Gives (w.on (b.files s)).answers := gives
  have asked := perform_recording (w := w.on (b.files s)) place rfl gives' job log
  have ends := files_perform (w := w.on (b.files s)) place rfl gives' job
  have written : (w.on (b.files s)).writes job = w.writes job := by
    rw [Build.writes, Build.writes, result]
  rw [requests] at asked
  rw [written] at ends
  refine ⟨asked, ends, ?_⟩
  change b.files (job.perform b w.settings s) = _ at ends
  rw [ends]
  exact recompiled.attempts fun write member => Build.yields_of_mem_writes inside located member

theorem foldl_perform {jobs : List Job} (located : ∀ job ∈ jobs, job.Located w.files w.directory)
    {s : σ} (recompiled : FileSystem.Recompiled w.files (b.files s)) (log : List Request) :
    jobs.foldl (Job.perform b.recording w.settings) (s, log) =
        (jobs.foldl (Job.perform b w.settings) s, log ++ jobs.flatMap w.requests) ∧
      b.files (jobs.foldl (Job.perform b w.settings) s) =
        (b.files s).attempts w.directory (jobs.flatMap w.writes) ∧
      FileSystem.Recompiled w.files (b.files (jobs.foldl (Job.perform b w.settings) s)) := by
  induction jobs generalizing s log with
  | nil => exact ⟨by simp, rfl, recompiled⟩
  | cons job jobs ih =>
    obtain ⟨here, rest⟩ := List.forall_mem_cons.mp located
    obtain ⟨asked, ends, further⟩ := perform_located gives place inside here recompiled log
    obtain ⟨recorded, files, last⟩ := ih rest further (log ++ w.requests job)
    refine ⟨?_, ?_, last⟩
    · rw [List.foldl_cons, List.foldl_cons, asked, recorded, List.flatMap_cons, List.append_assoc]
    · rw [List.foldl_cons, files, ends, List.flatMap_cons, FileSystem.attempts_append]

end Run

end SessionShell.Compile
