import Mathlib.Data.List.TakeWhile
import SessionShell.Host.Path

/-! The file name at the end of a path, and what becomes of it under another extension. -/

namespace SessionShell.Path

theorem exists_last {c : Char} {cs : List Char} (member : c ∈ cs) :
    ∃ front back, cs = front ++ c :: back ∧ c ∉ back := by
  obtain ⟨back, front, split, absent⟩ :=
    List.eq_append_cons_of_mem (List.mem_reverse.mpr member)
  refine ⟨front.reverse, back.reverse, ?_, fun h => absent (List.mem_reverse.mp h)⟩
  rw [← List.reverse_reverse cs, split]
  simp

/-- The text of the path falls into what ends with its last slash, and a name. -/
structure Divided (path : String) (before name : List Char) : Prop where
  text : path.toList = before ++ name
  slash : before = [] ∨ ∃ front, before = front ++ ['/']
  segment : '/' ∉ name
  named : name ≠ []

theorem exists_divided {path : String} (written : path ≠ "")
    (ends : path.toList.getLast? ≠ some '/') : ∃ before name, Divided path before name := by
  have nonempty : path.toList ≠ [] := fun empty => written (String.toList_eq_nil_iff.mp empty)
  by_cases member : '/' ∈ path.toList
  · obtain ⟨front, name, split, segment⟩ := exists_last member
    refine ⟨front ++ ['/'], name, by simp [split], .inr ⟨front, rfl⟩, segment, ?_⟩
    rintro rfl
    exact ends (by simp [split])
  · exact ⟨[], path.toList, rfl, .inl rfl, member, nonempty⟩

theorem span_reverse {c : Char} (front : List Char) {back : List Char} (absent : c ∉ back) :
    ((front ++ c :: back).reverse.takeWhile (· ≠ c)).reverse = back ∧
      (front ++ c :: back).reverse.dropWhile (· ≠ c) = c :: front.reverse := by
  have others : ∀ d ∈ back.reverse, decide (d ≠ c) = true := fun d member =>
    decide_eq_true fun same => absent (same ▸ List.mem_reverse.mp member)
  have text : (front ++ c :: back).reverse = back.reverse ++ c :: front.reverse := by simp
  rw [text, List.takeWhile_append_of_pos others, List.dropWhile_append_of_pos others]
  simp

theorem splitExtension_dotted {stem extension : List Char} (named : stem ≠ [])
    (last : '.' ∉ extension) :
    splitExtension (stem ++ '.' :: extension) = (stem, some extension) := by
  obtain ⟨back, front⟩ := span_reverse stem last
  obtain ⟨c, before, reversed⟩ := List.exists_cons_of_ne_nil (mt List.reverse_eq_nil_iff.mp named)
  simp only [splitExtension, front, back, reversed]
  rw [← reversed, List.reverse_reverse]

theorem splitExtension_undotted {name : List Char} (undotted : '.' ∉ name.tail) :
    splitExtension name = (name, none) := by
  cases name with
  | nil => rfl
  | cons c tail =>
    have others : ∀ d ∈ tail.reverse, decide (d ≠ '.') = true := fun d member =>
      decide_eq_true fun same => undotted (same ▸ List.mem_reverse.mp member)
    simp only [splitExtension, List.reverse_cons, List.dropWhile_append_of_pos others]
    by_cases dot : c = '.' <;> simp [dot]

theorem exists_extension {name : List Char} (dotted : '.' ∈ name.tail) :
    ∃ stem extension, name = stem ++ '.' :: extension ∧ stem ≠ [] ∧ '.' ∉ extension := by
  obtain ⟨front, extension, split, last⟩ := exists_last dotted
  cases name with
  | nil => cases dotted
  | cons c tail => exact ⟨c :: front, extension, by simp_all, List.cons_ne_nil _ _, last⟩

namespace Divided

variable {path : String} {before name : List Char} (divided : Divided path before name)
include divided

theorem rename {other : List Char} (segment : '/' ∉ other) (named : other ≠ []) :
    Divided (String.ofList (before ++ other)) before other :=
  ⟨String.toList_ofList, divided.slash, segment, named⟩

theorem eq_ofList : path = String.ofList (before ++ name) := by
  rw [← divided.text, String.ofList_toList]

theorem dropTail_eq (proper : name ≠ ['.']) :
    dropTail path.toList.reverse = path.toList.reverse := by
  have others : ∀ c ∈ name.reverse, c ≠ '/' := fun c member same =>
    divided.segment (same ▸ List.mem_reverse.mp member)
  rw [divided.text, List.reverse_append]
  rcases backwards : name.reverse with _ | ⟨c, _ | ⟨d, more⟩⟩
  · exact absurd (List.reverse_eq_nil_iff.mp backwards) divided.named
  · have alone : name = [c] := by rw [← List.reverse_reverse name, backwards]; rfl
    have noDot : c ≠ '.' := fun same => proper (same ▸ alone)
    have noSlash : c ≠ '/' := others c (backwards ▸ List.mem_cons_self)
    simp [dropTail, noDot, noSlash]
  · have noSlash : c ≠ '/' := others c (backwards ▸ List.mem_cons_self)
    have noSlash' : d ≠ '/' := others d (backwards ▸ List.mem_cons_of_mem _ List.mem_cons_self)
    simp [dropTail, noSlash, noSlash']

theorem splitLast_eq (proper : name ≠ ['.']) : splitLast path = (before, name) := by
  simp only [splitLast, divided.dropTail_eq proper]
  rw [divided.text]
  rcases divided.slash with rfl | ⟨front, rfl⟩
  · have others : ∀ d ∈ name.reverse, decide (d ≠ '/') = true := fun d member =>
      decide_eq_true fun same => divided.segment (same ▸ List.mem_reverse.mp member)
    rw [List.nil_append, List.takeWhile_eq_self_iff.mpr others,
      List.dropWhile_eq_nil_iff.mpr others, List.reverse_reverse, List.reverse_nil]
  · obtain ⟨back, rest⟩ := span_reverse front divided.segment
    rw [List.append_assoc, List.singleton_append, back, rest, List.reverse_cons,
      List.reverse_reverse]

theorem fileName?_eq (proper : name ≠ ['.'] ∧ name ≠ ['.', '.']) :
    fileName? path = some (before, name) := by
  simp [fileName?, divided.splitLast_eq proper.1, divided.named, proper]

theorem extension?_eq (proper : name ≠ ['.'] ∧ name ≠ ['.', '.']) :
    extension? path = (splitExtension name).2.map String.ofList := by
  simp [extension?, divided.fileName?_eq proper]

theorem withExtension_undotted (proper : name ≠ ['.'] ∧ name ≠ ['.', '.'])
    (undotted : '.' ∉ name.tail) (extension : String) :
    withExtension path extension = String.ofList (before ++ (name ++ '.' :: extension.toList)) := by
  have plain := splitExtension_undotted undotted
  have whole : dropExtension path = path := by
    unfold dropExtension
    rw [divided.extension?_eq proper, plain]
    rfl
  unfold withExtension
  simp only [whole, divided.fileName?_eq proper, plain, List.append_assoc]

section Dotted

variable {stem old : List Char} (dotted : name = stem ++ '.' :: old) (begun : stem ≠ [])
  (last : '.' ∉ old) (proper : name ≠ ['.'] ∧ name ≠ ['.', '.'])
include dotted begun last proper

theorem dropExtension_dotted :
    dropExtension path = String.ofList (before ++ (stem ++ ['.'])) := by
  have found : extension? path = some (String.ofList old) := by
    rw [divided.extension?_eq proper, dotted, splitExtension_dotted begun last]
    rfl
  have text : path.toList = before ++ (stem ++ ['.']) ++ old := by
    rw [divided.text, dotted]
    simp
  have length : path.length - (String.ofList old).length = (before ++ (stem ++ ['.'])).length := by
    rw [← String.length_toList, text, String.length_ofList, List.length_append, Nat.add_sub_cancel]
  simp only [dropExtension, found]
  rw [length, text, List.take_left']
  rfl

theorem withExtension_dotted (named : stem ≠ ['.']) (extension : String) :
    withExtension path extension = String.ofList (before ++ (stem ++ '.' :: extension.toList)) := by
  have segment : '/' ∉ stem ++ ['.'] := by
    have := divided.segment
    simp_all
  have cut := divided.rename segment (by simp)
  have proper' : stem ++ ['.'] ≠ ['.'] ∧ stem ++ ['.'] ≠ ['.', '.'] := by
    constructor
    · simpa using begun
    · intro dots
      exact named (@List.append_cancel_right _ stem ['.'] ['.'] dots)
  unfold withExtension
  simp only [divided.dropExtension_dotted dotted begun last proper, cut.fileName?_eq proper',
    splitExtension_dotted begun List.not_mem_nil, List.append_assoc]

theorem withExtension_dots (dot : stem = ['.']) (extension : String) :
    withExtension path extension = String.ofList (before ++ ['.', '.']) := by
  subst dot
  have cut : Divided (String.ofList (before ++ ['.', '.'])) before ['.', '.'] :=
    divided.rename (by decide) (by decide)
  have noFile : fileName? (String.ofList (before ++ ['.', '.'])) = none := by
    unfold fileName?
    simp only [cut.splitLast_eq (by decide)]
    rfl
  have dropped := divided.dropExtension_dotted dotted begun last proper
  rw [List.singleton_append] at dropped
  unfold withExtension
  simp only [dropped, noFile]

end Dotted

/-- With another extension the path ends in another name, unless its file name has that extension
already and not just a dot in front of it. -/
theorem exists_renamed (proper : name ≠ ['.'] ∧ name ≠ ['.', '.']) {extension : String}
    (plain : '/' ∉ extension.toList) :
    ∃ other, Divided (withExtension path extension) before other ∧
      (other = name ↔
        extension? path = some extension ∧ name ≠ '.' :: '.' :: extension.toList) := by
  by_cases dotted : '.' ∈ name.tail
  · obtain ⟨stem, old, split, begun, last⟩ := exists_extension dotted
    have found : extension? path = some (String.ofList old) := by
      rw [divided.extension?_eq proper, split, splitExtension_dotted begun last]
      rfl
    have same : extension? path = some extension ↔ old = extension.toList := by
      rw [found, Option.some.injEq]
      constructor
      · rintro rfl
        exact String.toList_ofList.symm
      · rintro rfl
        exact String.ofList_toList
    -- cut off behind its dot, a stem that is a dot is the directory above and gets no extension
    by_cases dot : stem = ['.']
    · refine ⟨['.', '.'], ?_, ?_⟩
      · rw [divided.withExtension_dots split begun last proper dot]
        exact divided.rename (by decide) (by decide)
      · rw [same]
        refine ⟨fun dots => absurd dots.symm proper.2, fun ⟨kept, dots⟩ => absurd ?_ dots⟩
        rw [split, dot, kept, List.singleton_append]
    · refine ⟨stem ++ '.' :: extension.toList, ?_, ?_⟩
      · rw [divided.withExtension_dotted split begun last proper dot]
        have segment := divided.segment
        rw [split] at segment
        exact divided.rename (by simp_all) (by simp)
      · rw [same, split]
        refine ⟨fun h => ⟨?_, ?_⟩, fun h => by rw [h.1]⟩
        · exact (List.cons.inj (List.append_cancel_left h)).2.symm
        · rw [← h]
          intro dots
          exact dot (@List.append_cancel_right _ stem ('.' :: extension.toList) ['.'] dots)
  · refine ⟨name ++ '.' :: extension.toList, ?_, ?_⟩
    · rw [divided.withExtension_undotted proper dotted]
      have segment := divided.segment
      exact divided.rename (by simp_all) (by simp)
    · rw [divided.extension?_eq proper, splitExtension_undotted dotted]
      simp

end Divided

end SessionShell.Path
