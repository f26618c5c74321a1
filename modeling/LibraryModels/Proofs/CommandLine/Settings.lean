import LibraryModels.CommandLine.Run
import LibraryModels.Proofs.Except
import Mathlib.Tactic.Common

/-!
# Where settings come from

A setting with one value is given at most once on the command line, and then its value replaces
that of the configuration file.  Workspace folders are different: those of the command line are
added after those of the file, and the first one that can hold models is taken.  So a folder of the
file is preferred to every folder of the command line.
-/

namespace LibraryModels

namespace Workspace

variable {folders more : List FilePath} {root : FilePath} {language database : String}

theorem folder?_append (folders more : List FilePath) :
    folder? (folders ++ more) = (folder? folders).or (folder? more) :=
  List.find?_append

/-- A folder that is added at the end holds the model file unless one before it leads elsewhere. -/
theorem file?_append_eq_iff
    (h : folder? more = some root) :
    file? (folders ++ more) language database = some (filePath root language database) ↔
      ∀ other, folder? folders = some other →
        filePath other language database = filePath root language database := by
  rw [file?, folder?_append, h]
  cases folder? folders with
  | none => simp
  | some other => simp

end Workspace

namespace CommandLine

/-! ## Values on the command line -/

namespace Draft

variable {d next : Draft} {s : Setting} {value : String} {arguments : List String}

/-- The paths of a setting. -/
def pathsOf (d : Draft) (s : Setting) : List FilePath :=
  (d.valuesOf s).map FilePath.mk

theorem path?_eq (d : Draft) (s : Setting) : d.path? s = (d.pathsOf s).head? :=
  List.head?_map.symm

/-- Only a setting that may be given more than once has more than one value. -/
def Once (d : Draft) : Prop :=
  ∀ s : Setting, s.isRepeatable = false → (d.valuesOf s).length ≤ 1

theorem valuesOf_concat (d : Draft) (s t : Setting) (value : String) :
    valuesOf { d with values := d.values ++ [(s, value)] } t =
      d.valuesOf t ++ if s = t then [value] else [] := by
  by_cases h : s = t <;> simp [valuesOf, h]

theorem Once.add
    (hd : d.Once) (h : d.add s value = .ok next) :
    next.Once := by
  unfold Draft.add at h
  split at h
  · cases h
  · next hfree =>
      cases h
      intro t ht
      rw [valuesOf_concat]
      split
      · next heq =>
          -- a value was refused if there was one before it
          subst heq
          simp only [ht, Bool.not_false, Bool.true_and, Bool.or_eq_true, not_or, Bool.not_eq_true,
            Bool.not_eq_false', List.isEmpty_iff] at hfree
          have hnone : d.valuesOf s = [] := hfree.2
          rw [hnone]
          exact Nat.le_refl 1
      · rw [List.append_nil]
        exact hd t ht

theorem Once.read
    (hd : d.Once) (h : d.read arguments = .ok next) :
    next.Once := by
  fun_induction Draft.read d arguments with
  | case1 d =>
      cases h
      exact hd
  | case2 d argument rest s value hargument ih =>
      obtain ⟨between, hadd, hrest⟩ := bind_eq_ok.1 h
      exact ih between (hd.add hadd) hrest
  | case4 d argument s hargument value rest hlooks ih =>
      obtain ⟨between, hadd, hrest⟩ := bind_eq_ok.1 h
      exact ih between (hd.add hadd) hrest
  | case7 d argument rest hargument hfresh ih => exact ih hd h
  | case9 d argument rest hargument hend =>
      cases h
      exact hd
  | case3 | case5 | case6 | case8 | case10 | case11 => cases h

end Draft

/-! ## Settings of a run -/

section Decides

variable {α : Type} {given : List α} {base result : α}

/-- A value that is given is the result, and without one the base is. -/
def Decides (given : List α) (base result : α) : Prop :=
  (∀ a ∈ given, result = a) ∧ (given = [] → result = base)

theorem decides_head?
    (h : given.length ≤ 1) :
    Decides given base (given.head?.getD base) := by
  match given with
  | [] => exact ⟨nofun, fun _ => rfl⟩
  | [a] => exact ⟨fun b hb => (List.mem_singleton.1 hb).symm, nofun⟩

end Decides

namespace Options

variable {o : Options} {files : FileSystem} {base c : Config} {d : Draft} {arguments : List String}

/-- The settings without the command line: those of the file that it names, or else the defaults. -/
def IsBase (o : Options) (files : FileSystem) (base : Config) : Prop :=
  (o.config = none ∧ base = .defaults files.temporary) ∨
    ∃ p, o.config = some p ∧ readConfig files p = .ok base

theorem settings_eq_ok_iff :
    o.settings files = .ok c ↔ ∃ base, o.IsBase files base ∧ c = o.override base := by
  unfold settings IsBase
  cases o.config with
  | none => simp [eq_comm]
  | some p =>
      cases hread : readConfig files p with
      | error e => simp [hread]
      | ok base => simp [hread, eq_comm]

theorem exists_draft
    (h : ofArguments arguments = .ok o) :
    ∃ d, ({} : Draft).read arguments = .ok d ∧
      o.codeql = (d.pathsOf .codeql).head? ∧
      o.queryStorageDir = (d.pathsOf .queryStorageDir).head? ∧
      o.qlDir = (d.pathsOf .qlDir).head? ∧
      o.workspaceFolders = d.pathsOf .workspace := by
  rw [ofArguments, bind_eq_ok] at h
  obtain ⟨d, hd, h⟩ := h
  split at h
  · cases h
    exact ⟨d, hd, d.path?_eq _, d.path?_eq _, d.path?_eq _, rfl⟩
  · cases h

/-- How the settings of a run come from the command line and from those without it. -/
structure Settled (o : Options) (d : Draft) (base c : Config) : Prop where
  codeql : Decides (d.pathsOf .codeql) base.codeql c.codeql
  queryStorageDir : Decides (d.pathsOf .queryStorageDir) base.queryStorageDir c.queryStorageDir
  qlDir : Decides ((d.pathsOf .qlDir).map some) base.qlDir c.qlDir
  libraries : ∀ p ∈ d.pathsOf .qlDir, c.librariesDir = .ok p
  /-- A folder of the file that can hold models comes before those that are given. -/
  modelFile : ∀ root, Workspace.folder? (d.pathsOf .workspace) = some root →
    (Workspace.file? c.workspaceFolders o.language o.databaseName =
        some (Workspace.filePath root o.language o.databaseName) ↔
      ∀ other, Workspace.folder? base.workspaceFolders = some other →
        Workspace.filePath other o.language o.databaseName =
          Workspace.filePath root o.language o.databaseName)

theorem settled_override
    (honce : d.Once) (hcodeql : o.codeql = (d.pathsOf .codeql).head?)
    (hstorage : o.queryStorageDir = (d.pathsOf .queryStorageDir).head?)
    (hqlDir : o.qlDir = (d.pathsOf .qlDir).head?)
    (hfolders : o.workspaceFolders = d.pathsOf .workspace) :
    Settled o d base (o.override base) := by
  have hlength (s : Setting) (hs : s.isRepeatable = false) : (d.pathsOf s).length ≤ 1 := by
    rw [Draft.pathsOf, List.length_map]
    exact honce s hs
  have hdir : Decides ((d.pathsOf .qlDir).map some) base.qlDir (o.override base).qlDir := by
    have hgiven : (o.override base).qlDir = ((d.pathsOf .qlDir).map some).head?.getD base.qlDir := by
      rw [override, hqlDir]
      cases d.pathsOf .qlDir with
      | nil => rfl
      | cons p rest => rfl
    rw [hgiven]
    apply decides_head?
    rw [List.length_map]
    exact hlength .qlDir rfl
  exact
    { codeql := by
        rw [override, hcodeql]
        exact decides_head? (hlength .codeql rfl)
      queryStorageDir := by
        rw [override, hstorage]
        exact decides_head? (hlength .queryStorageDir rfl)
      qlDir := hdir
      libraries := by
        intro p hp
        rw [Config.librariesDir, hdir.1 (some p) (List.mem_map_of_mem hp)]
        rfl
      modelFile := by
        intro root hroot
        rw [← hfolders] at hroot
        exact Workspace.file?_append_eq_iff hroot }

/--
A path that is given on the command line is that of the run, whatever the configuration file says,
and the path of the file or the default is used without one.  The model file is below the first
folder of the command line that can hold models exactly if no folder of the file leads elsewhere.
-/
theorem settings_of_arguments
    (ho : ofArguments arguments = .ok o) (hc : o.settings files = .ok c) :
    ∃ d base, ({} : Draft).read arguments = .ok d ∧ o.IsBase files base ∧ Settled o d base c := by
  obtain ⟨d, hd, hcodeql, hstorage, hqlDir, hfolders⟩ := exists_draft ho
  obtain ⟨base, hbase, rfl⟩ := settings_eq_ok_iff.1 hc
  have honce : d.Once := by
    refine Draft.Once.read ?_ hd
    intro s _
    exact Nat.zero_le 1
  exact ⟨d, base, hd, hbase, settled_override honce hcodeql hstorage hqlDir hfolders⟩

/-- A file system whose only file is the configuration file. -/
def configured (text : String) : FileSystem where
  entries := [(["c.yml"], .file (Text.bytes text))]

/-- The executable is given in both places, and a folder only on the command line. -/
theorem settings_of_arguments_given :
    let arguments :=
      ["--database", "/db", "-l", "java", "-c", "/c.yml", "--codeql", "/b/codeql", "-w", "/w/ql"]
    let files := configured "version: 1\ncodeql: /a/codeql\nql_dir: /a\n"
    let o : Options :=
      { database := ⟨"/db"⟩
        language := "java"
        config := some ⟨"/c.yml"⟩
        codeql := some ⟨"/b/codeql"⟩
        workspaceFolders := [⟨"/w/ql"⟩] }
    let c : Config :=
      { codeql := ⟨"/b/codeql"⟩, qlDir := some ⟨"/a"⟩, workspaceFolders := [⟨"/w/ql"⟩] }
    ofArguments arguments = .ok o ∧ o.settings files = .ok c ∧
      ∃ d base, ({} : Draft).read arguments = .ok d ∧ o.IsBase files base ∧
        Settled o d base c := by
  intro arguments files o c
  have ho : ofArguments arguments = .ok o := by decide +kernel
  have hc : o.settings files = .ok c := by
    have hread : readConfig files ⟨"/c.yml"⟩ =
        .ok { codeql := ⟨"/a/codeql"⟩, qlDir := some ⟨"/a"⟩ } := by
      decide +kernel
    exact settings_eq_ok_iff.2 ⟨_, .inr ⟨_, rfl, hread⟩, rfl⟩
  exact ⟨ho, hc, settings_of_arguments ho hc⟩

/-- A folder that is given on the command line does not hold the models if the file has another. -/
theorem model_file_of_configured_folder :
    let arguments := ["--database", "/db", "-l", "java", "-c", "/c.yml", "-w", "/w/ql"]
    let files := configured "version: 1\nworkspace_folders:\n- /a/ql\n"
    let o : Options :=
      { database := ⟨"/db"⟩
        language := "java"
        config := some ⟨"/c.yml"⟩
        workspaceFolders := [⟨"/w/ql"⟩] }
    let c : Config := { workspaceFolders := [⟨"/a/ql"⟩, ⟨"/w/ql"⟩] }
    ofArguments arguments = .ok o ∧ o.settings files = .ok c ∧
      Workspace.folder? o.workspaceFolders = some ⟨"/w/ql"⟩ ∧
      Workspace.file? c.workspaceFolders o.language o.databaseName =
        some ⟨"/a/ql/java/ql/lib/ext/db.model.yml"⟩ ∧
      Workspace.file? c.workspaceFolders o.language o.databaseName ≠
        some (Workspace.filePath ⟨"/w/ql"⟩ o.language o.databaseName) := by
  intro arguments files o c
  have hread : readConfig files ⟨"/c.yml"⟩ = .ok { workspaceFolders := [⟨"/a/ql"⟩] } := by
    decide +kernel
  refine ⟨by decide +kernel, settings_eq_ok_iff.2 ⟨_, .inr ⟨_, rfl, hread⟩, rfl⟩, ?_⟩
  decide +kernel

end Options

end CommandLine

end LibraryModels
