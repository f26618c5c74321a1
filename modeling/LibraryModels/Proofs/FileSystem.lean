import LibraryModels.FileSystem
import LibraryModels.Proofs.Except
import LibraryModels.Proofs.Text.Utf8

/-!
# Files read back

A file that was written is read as what was written.  A path that was followed before is followed
to the same place as long as the directories on the way are kept, and setting one place changes
nothing at other places.  Where only directories are added, every file is kept and read as before.
-/

namespace LibraryModels

namespace FileSystem

variable {fs fs' fs'' : FileSystem} {place q : Place} {entry : FileEntry} {p : FilePath}

/-! ## Setting a place -/

theorem lookup_filter_ne
    (entries : List (Place × FileEntry)) (h : q ≠ place) :
    (entries.filter fun e => e.1 ≠ place).lookup q = entries.lookup q := by
  induction entries with
  | nil => rfl
  | cons e rest ih =>
      obtain ⟨k, found⟩ := e
      by_cases hk : k = place
      · have hq : (q == k) = false := by
          rw [beq_eq_false_iff_ne, hk]
          exact h
        rw [List.filter_cons_of_neg (by simpa using hk), ih, List.lookup_cons, hq]
      · rw [List.filter_cons_of_pos (by simpa using hk), List.lookup_cons, List.lookup_cons, ih]

/-- Setting a place changes what stands there, and nothing else. -/
theorem entry?_set
    (hplace : place ≠ []) :
    entry? (fs.set place entry) q = if q = place then some entry else fs.entry? q := by
  unfold entry?
  by_cases hroot : q = []
  · rw [if_pos hroot, if_pos hroot, if_neg]
    intro h
    exact hplace (h.symm.trans hroot)
  · rw [if_neg hroot, if_neg hroot]
    show ((place, entry) :: fs.entries.filter fun e => e.1 ≠ place).lookup q = _
    rw [List.lookup_cons]
    by_cases h : q = place
    · rw [if_pos h, h, beq_self_eq_true]
    · rw [if_neg h, beq_eq_false_iff_ne.2 h]
      exact lookup_filter_ne fs.entries h

/-! ## Paths -/

/-- The directories of a file system are those of another, too. -/
structure KeepsDirectories (fs fs' : FileSystem) : Prop where
  working : fs'.working = fs.working
  directory : ∀ place, fs.entry? place = some .directory → fs'.entry? place = some .directory

/-- What does not stand in place of a directory leaves the directories as they are. -/
theorem keepsDirectories_set
    (hplace : place ≠ []) (hfile : fs.entry? place ≠ some .directory) :
    KeepsDirectories fs (fs.set place entry) where
  working := rfl
  directory := by
    intro q hq
    rw [entry?_set hplace, if_neg, hq]
    rintro rfl
    exact hfile hq

theorem KeepsDirectories.follow
    {parts : List String} {start found : Place}
    (hkeeps : KeepsDirectories fs fs') (h : fs.follow start parts = .ok found) :
    fs'.follow start parts = .ok found := by
  induction parts generalizing start with
  | nil => exact h
  | cons part rest ih =>
      rw [FileSystem.follow] at h ⊢
      by_cases hidle : FilePath.isIdle part = true
      · rw [if_pos hidle] at h ⊢
        exact ih h
      rw [if_neg hidle] at h ⊢
      by_cases hup : part = ".."
      · rw [if_pos hup] at h ⊢
        exact ih h
      rw [if_neg hup] at h ⊢
      by_cases hlong : isTooLong part = true
      · rw [if_pos hlong] at h
        cases h
      rw [if_neg hlong] at h ⊢
      cases hentry : fs.entry? (start ++ [part]) with
      | none =>
          rw [hentry] at h
          cases h
      | some e =>
          cases e with
          | file bytes =>
              rw [hentry] at h
              cases h
          | directory =>
              rw [hentry] at h
              rw [hkeeps.directory _ hentry]
              exact ih h

theorem KeepsDirectories.target
    {found : Target}
    (hkeeps : KeepsDirectories fs fs') (h : fs.target p = .ok found) :
    fs'.target p = .ok found := by
  unfold FileSystem.target at h ⊢
  rw [hkeeps.working]
  by_cases hempty : p.text = ""
  · rw [if_pos hempty] at h
    cases h
  by_cases hnul : '\x00' ∈ p.text.toList
  · rw [if_neg hempty, if_pos hnul] at h
    cases h
  rw [if_neg hempty, if_neg hnul] at h ⊢
  cases hparts : (p.parts.filter (· ≠ "")).reverse with
  | nil =>
      rw [hparts] at h
      exact h
  | cons name before =>
      rw [hparts] at h
      obtain ⟨parent, hparent, hname⟩ := bind_eq_ok.1 h
      refine bind_eq_ok.2 ⟨parent, hkeeps.follow hparent, ?_⟩
      by_cases hdots : name = "." ∨ name = ".."
      · rw [if_pos hdots] at hname ⊢
        obtain ⟨up, hup, hfound⟩ := bind_eq_ok.1 hname
        exact bind_eq_ok.2 ⟨up, hkeeps.follow hup, hfound⟩
      · rw [if_neg hdots] at hname ⊢
        exact hname

theorem ne_nil_of_target
    {separated : Bool}
    (h : fs.target p = .ok (.named place separated)) :
    place ≠ [] := by
  unfold target at h
  by_cases hempty : p.text = ""
  · rw [if_pos hempty] at h
    cases h
  by_cases hnul : '\x00' ∈ p.text.toList
  · rw [if_neg hempty, if_pos hnul] at h
    cases h
  rw [if_neg hempty, if_neg hnul] at h
  cases hparts : (p.parts.filter (· ≠ "")).reverse with
  | nil =>
      rw [hparts] at h
      cases h
  | cons name before =>
      rw [hparts] at h
      obtain ⟨parent, _, hname⟩ := bind_eq_ok.1 h
      by_cases hdots : name = "." ∨ name = ".."
      · rw [if_pos hdots] at hname
        obtain ⟨up, _, hfound⟩ := bind_eq_ok.1 hname
        cases hfound
      rw [if_neg hdots] at hname
      by_cases hlong : isTooLong name = true
      · rw [if_pos hlong] at hname
        cases hname
      · rw [if_neg hlong] at hname
        cases hname
        exact List.append_ne_nil_of_right_ne_nil _ (List.cons_ne_nil _ _)

/-! ## Writing -/

/-- What can be written stands at a place that was no directory. -/
theorem exists_target_of_writeBytes
    {bytes : List UInt8}
    (h : fs.writeBytes p bytes = .ok fs') :
    ∃ place, fs.target p = .ok (.named place false) ∧ fs.entry? place ≠ some .directory ∧
      fs' = fs.set place (.file bytes) := by
  obtain ⟨found, htarget, hwrite⟩ := bind_eq_ok.1 h
  cases found with
  | directory place => cases hwrite
  | named place separated =>
      simp only at hwrite
      by_cases hblocked : separated ∨ fs.entry? place = some .directory
      · rw [if_pos hblocked] at hwrite
        cases hwrite
      · rw [if_neg hblocked] at hwrite
        cases hwrite
        obtain ⟨hopen, hfile⟩ := not_or.1 hblocked
        rw [Bool.not_eq_true] at hopen
        rw [hopen] at htarget
        exact ⟨place, htarget, hfile, rfl⟩

/-- A file that could be written is read as it was written. -/
theorem readBytes_of_writeBytes
    {bytes : List UInt8}
    (h : fs.writeBytes p bytes = .ok fs') :
    fs'.readBytes p = .ok bytes := by
  obtain ⟨place, htarget, hfile, rfl⟩ := exists_target_of_writeBytes h
  have hplace := ne_nil_of_target htarget
  have hentry : entry? (fs.set place (.file bytes)) place = some (.file bytes) := by
    rw [entry?_set hplace, if_pos rfl]
  have hfind : (fs.set place (.file bytes)).find p = .ok (.file bytes) := by
    apply bind_eq_ok.2 ⟨_, (keepsDirectories_set hplace hfile).target htarget, _⟩
    simp only [hentry]
    rfl
  exact bind_eq_ok.2 ⟨_, hfind, rfl⟩

theorem readText_of_writeText
    {text : String}
    (h : fs.writeText p text = .ok fs') :
    fs'.readText p = .ok text := by
  refine bind_eq_ok.2 ⟨_, readBytes_of_writeBytes h, ?_⟩
  simp only [Text.Utf8.decode_bytes]
  rfl

/-! ## Adding directories -/

/-- Nothing but directories was added, and nothing was taken away. -/
structure Grown (fs fs' : FileSystem) : Prop extends KeepsDirectories fs fs' where
  file : ∀ place bytes,
    fs'.entry? place = some (.file bytes) ↔ fs.entry? place = some (.file bytes)

namespace Grown

theorem refl (fs : FileSystem) : Grown fs fs where
  working := rfl
  directory _ h := h
  file _ _ := Iff.rfl

theorem trans
    (h : Grown fs fs') (h' : Grown fs' fs'') :
    Grown fs fs'' where
  working := h'.working.trans h.working
  directory place hplace := h'.directory place (h.directory place hplace)
  file place bytes := (h'.file place bytes).trans (h.file place bytes)

theorem set_directory
    (hplace : place ≠ []) (hnone : fs.entry? place = none) :
    Grown fs (fs.set place .directory) where
  toKeepsDirectories := keepsDirectories_set hplace (by rw [hnone]; exact nofun)
  file := by
    intro q bytes
    rw [entry?_set hplace]
    by_cases hq : q = place
    · rw [if_pos hq, hq, hnone]
      constructor <;> intro h <;> cases h
    · rw [if_neg hq]

theorem of_makeDirectory
    (h : fs.makeDirectory p = .ok fs') :
    Grown fs fs' := by
  obtain ⟨found, htarget, hmake⟩ := bind_eq_ok.1 h
  cases found with
  | directory place => cases hmake
  | named place separated =>
      simp only at hmake
      by_cases hthere : (fs.entry? place).isSome
      · rw [if_pos hthere] at hmake
        cases hmake
      · rw [if_neg hthere] at hmake
        cases hmake
        exact set_directory (ne_nil_of_target htarget) (Option.not_isSome_iff_eq_none.1 hthere)

theorem of_ensureDirectory
    (h : fs.ensureDirectory p = .ok fs') :
    Grown fs fs' := by
  unfold ensureDirectory at h
  cases hmake : fs.makeDirectory p with
  | ok made =>
      rw [hmake] at h
      cases h
      exact of_makeDirectory hmake
  | error e =>
      rw [hmake] at h
      by_cases hthere : fs.isDirectory p = true
      · simp only [if_pos hthere] at h
        cases h
        exact refl fs
      · simp only [if_neg hthere] at h
        cases h

/-- Directories that were made stay, whether or not all of them could be made. -/
theorem makeDirectoriesUpTo (fs : FileSystem) (p : FilePath) (fuel : Nat) :
    Grown fs (fs.makeDirectoriesUpTo p fuel).1 := by
  -- the directories above are made first, each from where the ones before it were left
  induction fuel generalizing p with
  | zero => exact refl fs
  | succ fuel ih =>
      rw [FileSystem.makeDirectoriesUpTo]
      split
      · exact refl fs
      split
      · next hmake => exact of_makeDirectory hmake
      · next parent _ _ =>
          have habove := ih parent
          split
          · next above hmake =>
              rw [hmake] at habove
              split
              · next hensure => exact habove.trans (of_ensureDirectory hensure)
              · exact habove
          · next hmake =>
              rw [hmake] at habove
              exact habove
      · exact refl fs
      · exact refl fs

theorem makeDirectories (fs : FileSystem) (p : FilePath) :
    Grown fs (fs.makeDirectories p).1 :=
  makeDirectoriesUpTo fs p _

theorem readBytes
    {bytes : List UInt8}
    (hgrown : Grown fs fs') (h : fs.readBytes p = .ok bytes) :
    fs'.readBytes p = .ok bytes := by
  obtain ⟨e, hfind, hfile⟩ := bind_eq_ok.1 h
  obtain ⟨found, htarget, hfound⟩ := bind_eq_ok.1 hfind
  have htarget' := hgrown.target htarget
  refine bind_eq_ok.2 ⟨e, bind_eq_ok.2 ⟨found, htarget', ?_⟩, hfile⟩
  cases found with
  | directory place => exact hfound
  | named place separated =>
      simp only at hfound ⊢
      cases hentry : fs.entry? place with
      | none =>
          rw [hentry] at hfound
          cases hfound
      | some there =>
          cases there with
          | directory =>
              rw [hentry] at hfound
              rw [hgrown.directory place hentry]
              exact hfound
          | file kept =>
              rw [hentry] at hfound
              rw [(hgrown.file place kept).2 hentry]
              exact hfound

end Grown

end FileSystem

end LibraryModels
