import SessionShell.Proofs.Compile.Containment

/-! Compiling a module again. The products of the first time are no sources and no directories, so
that the second walk finds what the first one found. -/

namespace SessionShell.Compile

section Relisted

variable {fs gs : FileSystem} {directory : Place} {root : String}
  (recompiled : FileSystem.Recompiled fs gs) (unlinked : fs.Unlinked directory root)
include recompiled unlinked

theorem sourceNames_eq {path : String} {place : Place} (opens : fs.Opens directory path place) :
    sourceNames path (gs.children place) = sourceNames path (fs.children place) := by
  refine (sourceNames_increasing path).eq_of_mem_iff (sourceNames_increasing path) fun name => ?_
  rw [mem_sourceNames, mem_sourceNames]
  have same {hs : FileSystem} (named : hs.Named)
      (here : (∃ entry, hs.entry? (place ++ [name]) = some entry ∧ entry ≠ .directory) ∧
        isSource (Path.join path name) = true) :
      gs.entry? (place ++ [name]) = fs.entry? (place ++ [name]) := by
    obtain ⟨⟨entry, stands, -⟩, source⟩ := here
    exact recompiled.entry?_eq (isSource_join (named.isName stands) opens.written ▸ source)
  constructor
  · intro here
    rwa [same (recompiled.named unlinked.named) here] at here
  · intro here
    rwa [same unlinked.named here]

omit recompiled unlinked in
theorem mem_inside_iff {path : String} {place : Place} (opens : fs.Opens directory path place)
    (name : String) :
    name ∈ inside (fs.list directory) path ↔ fs.entry? (place ++ [name]) = some .directory := by
  have listed := FileSystem.list_eq_ok.mpr ⟨place, opens.leads, opens.isDirectory, rfl⟩
  rw [mem_inside]
  constructor
  · rintro ⟨entries, listed', member⟩
    rw [listed] at listed'
    cases listed'
    obtain ⟨entry, stands, kind⟩ := FileSystem.mem_children.mp member
    rwa [beq_iff_eq.mp kind] at stands
  · intro stands
    exact ⟨_, listed, FileSystem.mem_children.mpr ⟨_, stands, rfl⟩⟩

omit unlinked in
theorem inside_eq {path : String} {place : Place} (opens : fs.Opens directory path place) :
    inside (gs.list directory) path = inside (fs.list directory) path := by
  have sorted (hs : FileSystem) : (inside (hs.list directory) path).Pairwise (· < ·) :=
    @inside_increasing hs directory (fun _ => none) path
  refine (sorted gs).eq_of_mem_iff (sorted fs) fun name => ?_
  rw [mem_inside_iff opens, mem_inside_iff (opens.of_terrain recompiled.terrain),
    ← FileSystem.terrain_eq_directory, ← FileSystem.terrain_eq_directory, recompiled.terrain]

theorem item_relisted {path : String} {place : Place} (opens : fs.Opens directory path place) :
    item (gs.list directory) path = item (fs.list directory) path := by
  have again := opens.of_terrain recompiled.terrain
  have listed := FileSystem.list_eq_ok.mpr ⟨place, opens.leads, opens.isDirectory, rfl⟩
  have listed' := FileSystem.list_eq_ok.mpr ⟨place, again.leads, again.isDirectory, rfl⟩
  have sources := sourceNames_eq recompiled unlinked opens
  simp only [item, listed, listed', sourcesOf_eq, sources]

theorem relisted {entries : List (String × Bool)} (start : fs.list directory root = .ok entries)
    {trail : List String} (reaches : Reaches (fs.list directory) root trail) :
    item (gs.list directory) (Path.along root trail) =
        item (fs.list directory) (Path.along root trail) ∧
      inside (gs.list directory) (Path.along root trail) =
        inside (fs.list directory) (Path.along root trail) := by
  have both {place : Place}
      (leads : fs.place directory (Path.along root trail) .find = .ok place)
      (isDirectory : fs.entry? place = some .directory) :=
    have opens := (opens_of_reaches unlinked reaches leads isDirectory).2
    And.intro (item_relisted recompiled unlinked opens) (inside_eq recompiled opens)
  cases reaches with
  | root =>
    obtain ⟨place, leads, isDirectory, -⟩ := FileSystem.list_eq_ok.mp start
    exact both leads isDirectory
  | @inside trail name entries above listed member =>
    obtain ⟨place, leads, isDirectory, rfl⟩ := FileSystem.list_eq_ok.mp listed
    obtain ⟨entry, stands, kind⟩ := FileSystem.mem_children.mp member
    rw [beq_iff_eq.mp kind] at stands
    have isName := unlinked.named.isName stands
    have opens := (opens_of_reaches unlinked above leads isDirectory).2
    have same := opens.place_eq recompiled.terrain (.inr isName) .find
    rw [Path.along_concat] at both ⊢
    cases found : fs.place directory (Path.join (Path.along root trail) name) .find with
    | error e =>
      -- the path has become too long, and is too long again
      rw [found] at same
      simp [item, inside, FileSystem.list_of_error found, FileSystem.list_of_error same]
    | ok there =>
      refine both found ?_
      rw [opens.place_join (.inr isName)] at found
      rw [FileSystem.reachName_eq_ok isName found, stands]

theorem reaches_iff {entries : List (String × Bool)}
    (start : fs.list directory root = .ok entries) {trail : List String} :
    Reaches (gs.list directory) root trail ↔ Reaches (fs.list directory) root trail := by
  constructor
  · intro reaches
    induction reaches with
    | root => exact .root
    | inside above listed member ih =>
      have among := mem_inside.mpr ⟨_, listed, member⟩
      rw [(relisted recompiled unlinked start ih).2] at among
      obtain ⟨_, listed, member⟩ := mem_inside.mp among
      exact .inside ih listed member
  · intro reaches
    induction reaches with
    | root => exact .root
    | inside above listed member ih =>
      have among := mem_inside.mpr ⟨_, listed, member⟩
      rw [← (relisted recompiled unlinked start above).2] at among
      obtain ⟨_, listed, member⟩ := mem_inside.mp among
      exact .inside ih listed member

theorem moduleTree_eq {entries : List (String × Bool)}
    (start : fs.list directory root = .ok entries) :
    moduleTree gs directory root = moduleTree fs directory root := by
  obtain ⟨trails, itinerary, walked⟩ := @walk_barred fs directory root (fun _ => none) unlinked.named
  obtain ⟨others, itinerary', walked'⟩ :=
    @walk_barred gs directory root (fun _ => none) (recompiled.named unlinked.named)
  have same : others = trails := by
    refine itinerary'.increasing.eq_of_mem_iff itinerary.increasing fun trail => ?_
    rw [itinerary'.complete, itinerary.complete]
    exact reaches_iff recompiled unlinked start
  have first : moduleTree fs directory root = _ := walked _ (Nat.lt_succ_self _)
  have second : moduleTree gs directory root = _ := walked' _ (Nat.lt_succ_self _)
  rw [first, second, same]
  refine List.map_congr_left fun trail isTrail => ?_
  exact (relisted recompiled unlinked start ((itinerary.complete trail).mp isTrail)).1

end Relisted

def sourcesAt : Except Failure ModuleDirectory → List String
  | .ok d => d.sources
  | .error _ => []

def headersAt : Except Failure ModuleDirectory → List String
  | .ok d => [Path.join d.path bootstrapFile]
  | .error _ => []

structure Within (fs : FileSystem) (directory : Place) (root : String) (trail : List String)
    (name : String) : Prop where
  written : root ≠ ""
  names : ∀ above ∈ trail, Path.IsName above
  opens : ∃ start, fs.place directory root .find = .ok start ∧
    fs.Opens directory (Path.along root trail) (start ++ trail)
  goes : name = ".." ∨ Path.IsName name

namespace Within

variable {fs : FileSystem} {directory : Place} {root : String} {trail : List String} {name : String}
  (within : Within fs directory root trail name)
include within

theorem components_eq :
    Path.components (Path.join (Path.along root trail) name) =
      Path.components root ++
        (trail.map .name ++ [if name = ".." then .parent else .name name]) := by
  have counts : Path.component? name = some (if name = ".." then .parent else .name name) := by
    rcases within.goes with rfl | isName
    · rfl
    · rw [isName.component?_eq, if_neg isName.noDots]
  have segment : '/' ∉ name.toList := by
    rcases within.goes with rfl | isName
    · decide
    · exact isName.segment
  rw [Path.components_join (Path.along_ne_empty within.written within.names) segment counts,
    Path.components_along within.written within.names, List.append_assoc]

theorem eq_of_components {trail' : List String} {name' : String}
    (within' : Within fs directory root trail' name')
    (same : Path.components (Path.join (Path.along root trail) name) =
      Path.components (Path.join (Path.along root trail') name')) :
    trail = trail' ∧ name = name' := by
  rw [within.components_eq, within'.components_eq] at same
  obtain ⟨above, last⟩ := List.append_inj' (List.append_cancel_left same) rfl
  have injective : Function.Injective Path.Component.name := fun one other same => by
    cases same
    rfl
  refine ⟨List.map_injective_iff.mpr injective above, ?_⟩
  have ends := List.singleton_inj.mp last
  split at ends <;> split at ends
  · rename_i up up'
    rw [up, up']
  · cases ends
  · cases ends
  · exact injective ends

theorem eq_of_landing
    (inside : ∀ place, fs.entry? place ≠ none → fs.entry? place.dropLast = some .directory)
    {trail' : List String} {name' : String} (within' : Within fs directory root trail' name')
    {found : Place}
    (lands : fs.landing? directory (Path.join (Path.along root trail) name) = some found)
    (lands' : fs.landing? directory (Path.join (Path.along root trail') name') = some found) :
    trail = trail' ∧ name = name' := by
  obtain ⟨start, begun, opens⟩ := within.opens
  obtain ⟨start', begun', opens'⟩ := within'.opens
  rw [begun] at begun'
  cases begun'
  obtain ⟨rfl, -⟩ := opens.landing?_join inside within.goes lands
  obtain ⟨same, -⟩ := opens'.landing?_join inside within'.goes lands'
  rw [List.append_assoc, List.append_assoc] at same
  obtain ⟨above, last⟩ := List.append_inj' (List.append_cancel_left same) rfl
  exact ⟨above, List.singleton_inj.mp last⟩

end Within

section Targets

variable {fs : FileSystem} {directory : Place} {root : String}
  (unlinked : fs.Unlinked directory root)
include unlinked

theorem within_of_reaches {trail : List String} (reaches : Reaches (fs.list directory) root trail)
    {place : Place} (opens : fs.Opens directory (Path.along root trail) place) {name : String}
    (goes : name = ".." ∨ Path.IsName name) : Within fs directory root trail name := by
  obtain ⟨start, begun, rfl⟩ := (place_of_reaches unlinked.named reaches).1 place opens.leads
  exact ⟨FileSystem.ne_empty_of_place begun,
    @names_of_reaches fs directory root (fun _ => none) unlinked.named trail reaches,
    ⟨start, begun, opens⟩, goes⟩

theorem at_of_reaches {trail : List String} (reaches : Reaches (fs.list directory) root trail) :
    ∃ names : List String, names.Pairwise (· < ·) ∧
      (∀ name ∈ names, Within fs directory root trail name ∧ Path.IsName name ∧
        isSource name = true) ∧
      sourcesAt (item (fs.list directory) (Path.along root trail)) =
        names.map (Path.join (Path.along root trail)) ∧
      ∀ header ∈ headersAt (item (fs.list directory) (Path.along root trail)),
        Within fs directory root trail bootstrapFile ∧
          header = Path.join (Path.along root trail) bootstrapFile := by
  rcases @item_eq fs directory root (fun _ => none) unlinked trail reaches with
    ⟨f, failed⟩ | ⟨place, names, -, opens, sorted, proper, all⟩
  · refine ⟨[], .nil, nofun, ?_, ?_⟩
    · change sourcesAt (item (barred (fun _ => none) (fs.list directory)) _) = _
      rw [failed]
      rfl
    · change ∀ header ∈ headersAt (item (barred (fun _ => none) (fs.list directory)) _), _
      rw [failed]
      nofun
  · refine ⟨names, sorted, fun name member => ?_, ?_, ?_⟩
    · obtain ⟨isName, source⟩ := proper name member
      exact ⟨within_of_reaches unlinked reaches opens (.inr isName), isName, source⟩
    · change sourcesAt (item (barred (fun _ => none) (fs.list directory)) _) = _
      rw [all]
      rfl
    · change ∀ header ∈ headersAt (item (barred (fun _ => none) (fs.list directory)) _), _
      rw [all]
      intro header member
      exact ⟨within_of_reaches unlinked reaches opens (.inr bootstrap_isName),
        List.mem_singleton.mp member⟩

theorem moduleTree_items :
    ∃ trails, Itinerary (fs.list directory) root trails ∧
      moduleTree fs directory root =
        trails.map fun trail => item (fs.list directory) (Path.along root trail) := by
  obtain ⟨trails, itinerary, walked⟩ := @walk_barred fs directory root (fun _ => none) unlinked.named
  exact ⟨trails, itinerary, walked _ (Nat.lt_succ_self _)⟩

theorem mem_sources {source : String}
    (member : source ∈ (moduleTree fs directory root).flatMap sourcesAt) :
    ∃ trail name, Within fs directory root trail name ∧ Path.IsName name ∧ isSource name = true ∧
      source = Path.join (Path.along root trail) name := by
  obtain ⟨trails, itinerary, tree⟩ := moduleTree_items unlinked
  rw [tree, List.flatMap_map] at member
  obtain ⟨trail, isTrail, member⟩ := List.mem_flatMap.mp member
  obtain ⟨names, -, proper, sources, -⟩ :=
    at_of_reaches unlinked ((itinerary.complete trail).mp isTrail)
  rw [sources] at member
  obtain ⟨name, isName, rfl⟩ := List.mem_map.mp member
  obtain ⟨within, isName, source⟩ := proper name isName
  exact ⟨trail, name, within, isName, source, rfl⟩

theorem mem_headers {header : String}
    (member : header ∈ (moduleTree fs directory root).flatMap headersAt) :
    ∃ trail, Within fs directory root trail bootstrapFile ∧
      header = Path.join (Path.along root trail) bootstrapFile := by
  obtain ⟨trails, itinerary, tree⟩ := moduleTree_items unlinked
  rw [tree, List.flatMap_map] at member
  obtain ⟨trail, isTrail, member⟩ := List.mem_flatMap.mp member
  obtain ⟨names, -, -, -, headers⟩ :=
    at_of_reaches unlinked ((itinerary.complete trail).mp isTrail)
  exact ⟨trail, headers header member⟩

omit unlinked in
theorem Within.destination {trail : List String} {name : String}
    (within : Within fs directory root trail name) (isName : Path.IsName name)
    (source : isSource name = true) : Within fs directory root trail (Compile.destination name) where
  written := within.written
  names := within.names
  opens := within.opens
  goes := (destination_name isName source).imp_right And.left

omit unlinked in
theorem Within.destination_eq {trail : List String} {name : String}
    (within : Within fs directory root trail name) (isName : Path.IsName name) :
    Compile.destination (Path.join (Path.along root trail) name) =
      Path.join (Path.along root trail) (Compile.destination name) :=
  destination_join isName (Path.along_ne_empty within.written within.names)

theorem destinations_nodup :
    (((moduleTree fs directory root).flatMap sourcesAt).map fun source =>
      Path.components (destination source)).Nodup := by
  obtain ⟨trails, itinerary, tree⟩ := moduleTree_items unlinked
  rw [tree, List.flatMap_map, List.map_flatMap]
  -- the components of a destination tell its trail and the name of the source
  have told {trail trail' : List String} {name name' : String}
      (here : Within fs directory root trail name ∧ Path.IsName name ∧ isSource name = true)
      (here' : Within fs directory root trail' name' ∧ Path.IsName name' ∧ isSource name' = true)
      (same : Path.components (destination (Path.join (Path.along root trail) name)) =
        Path.components (destination (Path.join (Path.along root trail') name'))) :
      trail = trail' ∧ name = name' := by
    obtain ⟨within, isName, source⟩ := here
    obtain ⟨within', isName', source'⟩ := here'
    rw [within.destination_eq isName, within'.destination_eq isName'] at same
    obtain ⟨trails, names⟩ := (within.destination isName source).eq_of_components
      (within'.destination isName' source') same
    exact ⟨trails, destination_injective isName isName' source source' names⟩
  refine List.pairwise_flatMap.mpr ⟨fun trail isTrail => ?_, ?_⟩
  · obtain ⟨names, sorted, proper, sources, -⟩ :=
      at_of_reaches unlinked ((itinerary.complete trail).mp isTrail)
    rw [sources, List.map_map, List.pairwise_map]
    refine sorted.imp_of_mem fun {name other} member member' smaller same => ?_
    simp only [Function.comp_apply] at same
    obtain ⟨-, names⟩ := told (proper name member) (proper other member') same
    exact ne_of_lt smaller names
  · apply List.Pairwise.imp_of_mem _ itinerary.increasing
    intro trail later isTrail isLater before
    obtain ⟨names, -, proper, sources, -⟩ :=
      at_of_reaches unlinked ((itinerary.complete trail).mp isTrail)
    obtain ⟨names', -, proper', sources', -⟩ :=
      at_of_reaches unlinked ((itinerary.complete later).mp isLater)
    rw [sources, sources', List.map_map, List.map_map]
    rintro one member other member' same
    obtain ⟨name, isName, isOne⟩ := List.mem_map.mp member
    obtain ⟨name', isName', isOther⟩ := List.mem_map.mp member'
    have equal := isOne.trans (same.trans isOther.symm)
    simp only [Function.comp_apply] at equal
    obtain ⟨trails, -⟩ := told (proper name isName) (proper' name' isName') equal
    exact ne_of_lt before trails

theorem destination_apart {source other : String}
    (member : source ∈ (moduleTree fs directory root).flatMap sourcesAt)
    (among : other ∈ (moduleTree fs directory root).flatMap sourcesAt ∨
      other ∈ (moduleTree fs directory root).flatMap headersAt) :
    Path.components (destination source) ≠ Path.components other := by
  obtain ⟨trail, name, within, isName, isSource', rfl⟩ := mem_sources unlinked member
  rw [within.destination_eq isName]
  intro same
  have goes := destination_name isName isSource'
  rcases among with among | among
  · obtain ⟨trail', name', within', isName', source', rfl⟩ := mem_sources unlinked among
    obtain ⟨-, names⟩ := (within.destination isName isSource').eq_of_components within' same
    rw [names] at goes
    rcases goes with up | ⟨-, extension⟩
    · exact isName'.noDots up
    · rw [isSource, extension] at source'
      exact absurd source' (by decide)
  · obtain ⟨trail', within', rfl⟩ := mem_headers unlinked among
    obtain ⟨-, names⟩ := (within.destination isName isSource').eq_of_components within' same
    exact destination_ne_bootstrap isName isSource' names

theorem exists_within {path : String}
    (member : path ∈ (moduleTree fs directory root).flatMap sourcesAt ++
      (moduleTree fs directory root).flatMap headersAt ++
      ((moduleTree fs directory root).flatMap sourcesAt).map destination) :
    ∃ trail name, Within fs directory root trail name ∧
      path = Path.join (Path.along root trail) name := by
  rcases List.mem_append.mp member with member | member
  · rcases List.mem_append.mp member with member | member
    · obtain ⟨trail, name, within, -, -, rfl⟩ := mem_sources unlinked member
      exact ⟨trail, name, within, rfl⟩
    · obtain ⟨trail, within, rfl⟩ := mem_headers unlinked member
      exact ⟨trail, _, within, rfl⟩
  · obtain ⟨source, among, rfl⟩ := List.mem_map.mp member
    obtain ⟨trail, name, within, isName, isSource, rfl⟩ := mem_sources unlinked among
    exact ⟨trail, _, within.destination isName isSource, within.destination_eq isName⟩

end Targets

namespace Build

variable {w : Build}

theorem writes_of_unlisted (free : ∀ path, w.locked path = none) {e : IoError}
    (failed : w.files.list w.directory w.root = .error e) : w.jobs.flatMap w.writes = [] := by
  have start : barred w.locked (w.files.list w.directory) w.root = .error e := by
    rw [barred, free, failed]
  have only : w.tree = [.error ⟨["failed to read directory " ++ w.root], .io e⟩] := by
    rw [tree, walk_cons, item, inside, start]
    simp [walk_nil]
  rw [jobs, only]
  rfl

theorem compileModule_again {σ : Type} {b : Backend σ} {fs : FileSystem} {a : Answers}
    {root : String} {t : σ} (gives : b.Gives a) (unlinked : fs.Unlinked b.directory root)
    (recompiled : fs.Recompiled (b.files t))
    (again : moduleTree (b.files t) b.directory root = moduleTree fs b.directory root) :
    let w : Build := ⟨fs, b.directory, root, fun _ => none, a, true⟩
    let ends := compileModule b ⟨true, false⟩ root t
    compileModule b.recording ⟨true, false⟩ root (t, []) = (ends, w.jobs.flatMap w.requests) ∧
      b.files ends = (b.files t).attempts b.directory (w.jobs.flatMap w.writes) ∧
      fs.Recompiled (b.files ends) := by
  intro w ends
  have located : ∀ job ∈ w.jobs, job.Located w.files w.directory :=
    fun job member => @located_of_mem_jobs w unlinked job member
  have gives' : b.Gives w.answers := gives
  have plainRun : ends = w.jobs.foldl (Job.perform b w.settings) t := by
    unfold ends
    rw [compileModule, again, compileTree_eq]
    rfl
  have recordedRun : compileModule b.recording ⟨true, false⟩ root (t, []) =
      w.jobs.foldl (Job.perform b.recording w.settings) (t, []) := by
    change compileTree b.recording _ (moduleTree (b.files t) b.directory root) _ = _
    rw [again, compileTree_eq]
    rfl
  rw [plainRun, recordedRun]
  exact foldl_perform gives' rfl unlinked.inside located recompiled []

end Build

/-- A module that is compiled twice: what its paths have to do with each other, and what the second
run has to do with the first. -/
structure Repeated {σ : Type} (b : Backend σ) (root : String) (s : σ) (sources headers : List String)
    (first second : σ × List Request) : Prop where
  distinct : (sources.map fun source => Path.components (destination source)).Nodup
  apart : ∀ source ∈ sources, ∀ other ∈ sources ++ headers,
    Path.components (destination source) ≠ Path.components other
  landings : ∀ path ∈ sources ++ headers ++ sources.map destination,
    ∀ other ∈ sources ++ headers ++ sources.map destination, ∀ place,
      (b.files s).landing? b.directory path = some place →
      (b.files s).landing? b.directory other = some place → path = other
  kept : ∀ source ∈ sources,
    (b.files first.1).find b.directory source = (b.files s).find b.directory source
  asked : second.2 = first.2
  files : b.files second.1 = b.files first.1
  unrecorded : first.1 = compileModule b ⟨true, false⟩ root s
  unrecorded_again : second.1 = compileModule b ⟨true, false⟩ root first.1

/-- A module is compiled twice, with its codes written and not run, by a backend whose answers depend
on nothing but what it is asked. No two sources have one destination, no destination is a source or a
header file, and writes to two of all these paths end at two places. Each source is found as it was.
The second time the same is asked for in the same order, and the files stay as they were left the
first time. -/
theorem module_repeated {σ : Type} {b : Backend σ} {a : Answers} (gives : b.Gives a) {s : σ}
    (root : String) (unlinked : (b.files s).Unlinked b.directory root) :
    let tree := moduleTree (b.files s) b.directory root
    let first := compileModule b.recording ⟨true, false⟩ root (s, [])
    let second := compileModule b.recording ⟨true, false⟩ root (first.1, [])
    Repeated b root s (tree.flatMap sourcesAt) (tree.flatMap headersAt) first second := by
  intro tree first second
  let before := b.files s
  let w : Build := ⟨before, b.directory, root, fun _ => none, a, true⟩
  obtain ⟨once, files, recompiled⟩ :=
    Build.compileModule_again gives unlinked (.refl before) rfl
  have reached : first.1 = compileModule b ⟨true, false⟩ root s := congrArg Prod.fst once
  rw [← reached] at files recompiled
  have again : moduleTree (b.files first.1) b.directory root = tree := by
    cases start : before.list b.directory root with
    | error e =>
      rw [files, @Build.writes_of_unlisted w (fun _ => rfl) e start]
      rfl
    | ok entries => exact moduleTree_eq recompiled unlinked start
  obtain ⟨twice, files', -⟩ := Build.compileModule_again gives unlinked recompiled again
  refine {
    distinct := destinations_nodup unlinked
    apart := fun source member other among =>
      destination_apart unlinked member (List.mem_append.mp among)
    asked := (congrArg Prod.snd twice).trans (congrArg Prod.snd once).symm
    unrecorded := reached
    unrecorded_again := congrArg Prod.fst twice
    landings := ?landings
    kept := ?kept
    files := ?files }
  case landings =>
    intro path member other among place lands lands'
    obtain ⟨trail, name, within₁, rfl⟩ := exists_within unlinked member
    obtain ⟨trail', name', within₂, rfl⟩ := exists_within unlinked among
    obtain ⟨rfl, rfl⟩ := within₁.eq_of_landing unlinked.inside within₂ lands lands'
    rfl
  case kept =>
    intro source member
    obtain ⟨trail, name, within, isName, isSource, rfl⟩ := mem_sources unlinked member
    obtain ⟨start, -, opens⟩ := within.opens
    exact recompiled.find_eq opens isName isSource
  case files =>
    have ends : b.files second.1 = _ := (congrArg (b.files ·.1) twice).trans files'
    rw [ends, files, FileSystem.attempts_again]

theorem module_repeated_dots :
    let entries : List (Place × Entry) := [(["m"], .directory),
      (["m", "..hsk"], .file (Text.Utf8.encode "echo dots") false),
      (["m", "a"], .directory), (["m", "a", "x.hsk"], .file (Text.Utf8.encode "echo x") false),
      (["m", "x.hsk"], .file (Text.Utf8.encode "echo '") false)]
    let m := Machine.holding entries
    let s : Frontend Value ShellContext := { host := ⟨m, false⟩ }
    let first := compileModule (Frontend.builtin m).recording ⟨true, false⟩ "m" (s, [])
    let second := compileModule (Frontend.builtin m).recording ⟨true, false⟩ "m" (first.1, [])
    (moduleTree m.files [] "m").flatMap sourcesAt = ["m/..hsk", "m/x.hsk", "m/a/x.hsk"] ∧
      (["m/..hsk", "m/x.hsk", "m/a/x.hsk"].map fun source =>
        Path.components (destination source)).Nodup ∧
      second.2 = first.2 ∧
      (Frontend.builtin m).files second.1 = (Frontend.builtin m).files first.1 := by
  intro entries m s first second
  have plain : m.files.Plain := FileSystem.plain_of_entries (by decide +kernel)
  have named : m.files.Named := FileSystem.named_of_entries (by decide +kernel)
  have repeated := module_repeated (Frontend.builtin_gives m) (s := s) "m"
    (FileSystem.unlinked_of_plain plain named [] "m")
  have sources : (moduleTree m.files [] "m").flatMap sourcesAt =
      ["m/..hsk", "m/x.hsk", "m/a/x.hsk"] := by decide +kernel
  have sameTree : moduleTree ((Frontend.builtin m).files s) (Frontend.builtin m).directory "m" =
      moduleTree m.files [] "m" := rfl
  have distinct := repeated.distinct
  rw [sameTree, sources] at distinct
  unfold second first
  exact ⟨sources, distinct, repeated.asked, repeated.files⟩

end SessionShell.Compile
