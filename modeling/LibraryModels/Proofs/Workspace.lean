import LibraryModels.Proofs.FilePath
import LibraryModels.Workspace

/-!
# Where a database name leads

The file of a database lies in the model directory of its language whatever the name of the
database is, because a name has no separators left when it becomes part of a path.  What is lost
with them is the difference between separators and dots, and nothing else: names share a file
exactly if they differ in nothing but these.
-/

namespace LibraryModels

namespace Workspace

variable {root : FilePath} {language a b : String}

/-! ## The name of the file -/

/-- The characters that look the same in a file name. -/
def flattened : List Char :=
  ['/', '\\', '.']

theorem flatChar_eq_iff {x y : Char} :
    flatChar x = flatChar y ↔ x = y ∨ (x ∈ flattened ∧ y ∈ flattened) := by
  simp only [flatChar, flattened, List.mem_cons, List.not_mem_nil, or_false]
  grind

theorem flatChar_ne_separator (c : Char) :
    flatChar c ≠ '/' ∧ flatChar c ≠ '\\' := by
  unfold flatChar
  split
  · decide
  · next h => exact not_or.1 h

theorem toList_fileName (database : String) :
    (fileName database).toList = database.toList.map flatChar ++ fileSuffix.toList := by
  rw [fileName, String.toList_append, String.toList_ofList]

theorem not_mem_fileName (database : String) :
    '/' ∉ (fileName database).toList ∧ '\\' ∉ (fileName database).toList := by
  have hsuffix : '/' ∉ fileSuffix.toList ∧ '\\' ∉ fileSuffix.toList := by decide
  simp only [toList_fileName, List.mem_append, List.mem_map, not_or, not_exists, not_and]
  exact ⟨⟨fun c _ => (flatChar_ne_separator c).1, hsuffix.1⟩,
    fun c _ => (flatChar_ne_separator c).2, hsuffix.2⟩

/-- The suffix alone makes the name longer than the parts that lead nowhere. -/
theorem isIdle_fileName (database : String) :
    FilePath.isIdle (fileName database) = false := by
  have hlength : 10 ≤ (fileName database).toList.length := by
    rw [toList_fileName, List.length_append]
    exact Nat.le_add_left 10 _
  simp only [FilePath.isIdle, decide_eq_false_iff_not, not_or]
  constructor <;>
  · intro h
    rw [h] at hlength
    revert hlength
    decide

/-- Characters at the same places of two names are the same, or both get lost in a file name. -/
def Confusable (a b : String) : Prop :=
  a.toList.length = b.toList.length ∧
    ∀ (i : Nat) (x y : Char), a.toList[i]? = some x → b.toList[i]? = some y →
      x = y ∨ (x ∈ flattened ∧ y ∈ flattened)

theorem fileName_eq_iff :
    fileName a = fileName b ↔ Confusable a b := by
  rw [← String.toList_inj, toList_fileName, toList_fileName, List.append_left_inj]
  constructor
  · intro h
    have hlength : a.toList.length = b.toList.length := by
      simpa using congrArg List.length h
    refine ⟨hlength, ?_⟩
    intro i x y hx hy
    have hi : (a.toList.map flatChar)[i]? = (b.toList.map flatChar)[i]? := by rw [h]
    rw [List.getElem?_map, List.getElem?_map, hx, hy] at hi
    exact flatChar_eq_iff.1 (Option.some.inj hi)
  · rintro ⟨hlength, hchars⟩
    apply List.ext_getElem?
    intro i
    rw [List.getElem?_map, List.getElem?_map]
    cases hx : a.toList[i]? with
    | none =>
        rw [List.getElem?_eq_none_iff, hlength, ← List.getElem?_eq_none_iff] at hx
        rw [hx]
    | some x =>
        have hi : i < b.toList.length := by
          rw [← hlength]
          exact (List.getElem?_eq_some_iff.1 hx).1
        have hy : b.toList[i]? = some b.toList[i] := List.getElem?_eq_getElem hi
        rw [hy, Option.map_some, Option.map_some, flatChar_eq_iff.2 (hchars i x _ hx hy)]

/-- Without dots and backslashes only equal names look the same. -/
theorem eq_of_confusable
    (h : Confusable a b)
    (ha : '.' ∉ a.toList ∧ '\\' ∉ a.toList) (hb : '.' ∉ b.toList ∧ '\\' ∉ b.toList) :
    a = b := by
  obtain ⟨hlength, hchars⟩ := h
  have hslash : ∀ {s : String} {c : Char}, '.' ∉ s.toList ∧ '\\' ∉ s.toList → c ∈ s.toList →
      c ∈ flattened → c = '/' := by
    intro s c hs hmem hc
    simp only [flattened, List.mem_cons, List.not_mem_nil, or_false] at hc
    rcases hc with rfl | rfl | rfl
    · rfl
    · exact absurd hmem hs.2
    · exact absurd hmem hs.1
  apply String.toList_injective
  apply List.ext_getElem hlength
  intro i hi hi'
  have hchar := hchars i _ _ (List.getElem?_eq_getElem hi) (List.getElem?_eq_getElem hi')
  rcases hchar with heq | ⟨hx, hy⟩
  · exact heq
  · rw [hslash ha (List.getElem_mem hi) hx, hslash hb (List.getElem_mem hi') hy]

/-! ## The path of the file -/

theorem components_directory (root : FilePath) (language : String) :
    (directory root language).components =
      (root.join ⟨language⟩).components ++ ["ql", "lib", "ext"] := by
  rw [directory, FilePath.components_entry (by decide) (by decide),
    FilePath.components_entry (by decide) (by decide),
    FilePath.components_entry (by decide) (by decide), FilePath.entry]
  simp

theorem components_filePath (root : FilePath) (language database : String) :
    (filePath root language database).components =
      (directory root language).components ++ [fileName database] :=
  FilePath.components_entry (not_mem_fileName database).1 (isIdle_fileName database)

theorem text_filePath (root : FilePath) (language database : String) :
    (filePath root language database).text =
      (directory root language).text ++ "/" ++ fileName database := by
  have hbase : (directory root language).base = (directory root language).text.toList ++ ['/'] := by
    rw [directory, FilePath.entry_eq (by decide), FilePath.base, String.toList_ofList]
    simp
  rw [filePath, FilePath.entry_eq (FilePath.isAbsolute_eq_false (not_mem_fileName database).1),
    hbase, ← String.toList_inj]
  simp

theorem parent?_filePath (root : FilePath) (language database : String) :
    (filePath root language database).parent? = some (directory root language) := by
  refine FilePath.parent?_entry_entry ?_ (by decide) (by decide) (not_mem_fileName database).1
    (isIdle_fileName database)
  rw [FilePath.entry_eq (by decide)]
  simp

theorem components_filePath_eq_iff :
    (filePath root language a).components = (filePath root language b).components ↔
      Confusable a b := by
  rw [components_filePath, components_filePath, List.append_right_inj, List.singleton_inj,
    fileName_eq_iff]

theorem filePath_eq_iff :
    filePath root language a = filePath root language b ↔ Confusable a b := by
  rw [filePath, filePath,
    FilePath.entry_inj (FilePath.isAbsolute_eq_false (not_mem_fileName a).1)
      (FilePath.isAbsolute_eq_false (not_mem_fileName b).1),
    fileName_eq_iff]

/--
The file of a database is one part below the model directory of its language, whatever the root,
the language and the name are, and the file of another database only if the names are confusable.
Two paths are the same as texts exactly if they have the same components.
-/
theorem database_files_are_apart (root : FilePath) (language : String) :
    (directory root language).components =
        (root.join ⟨language⟩).components ++ ["ql", "lib", "ext"] ∧
      (∀ database,
        (filePath root language database).text =
            (directory root language).text ++ "/" ++ fileName database ∧
          (filePath root language database).components =
            (directory root language).components ++ [fileName database] ∧
          (filePath root language database).parent? = some (directory root language) ∧
          '/' ∉ (fileName database).toList ∧ '\\' ∉ (fileName database).toList ∧
          ∃ stem, fileName database = stem ++ ".model.yml") ∧
      (∀ a b, filePath root language a = filePath root language b ↔ Confusable a b) ∧
      (∀ a b, (filePath root language a).components = (filePath root language b).components ↔
        Confusable a b) ∧
      ∀ a b : String, '.' ∉ a.toList ∧ '\\' ∉ a.toList → '.' ∉ b.toList ∧ '\\' ∉ b.toList →
        a ≠ b → (filePath root language a).components ≠ (filePath root language b).components := by
  refine ⟨components_directory root language, ?_, fun a b => filePath_eq_iff,
    fun a b => components_filePath_eq_iff, ?_⟩
  · intro database
    refine ⟨text_filePath root language database, components_filePath root language database,
      parent?_filePath root language database, (not_mem_fileName database).1,
      (not_mem_fileName database).2, ?_⟩
    exact ⟨_, rfl⟩
  · intro a b ha hb hne hpath
    exact hne (eq_of_confusable (components_filePath_eq_iff.1 hpath) ha hb)

/-- A name with dots leads to the same file as the one with separators in their places. -/
example : filePath ⟨"/ql"⟩ "java" "../a\\b" = filePath ⟨"/ql"⟩ "java" "...a.b" := by decide +kernel

end Workspace

end LibraryModels
