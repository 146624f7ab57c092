import PrintAgent.Net.Downloader

/-!
# The download folder

Where the file of a job lies.  The job id goes into its path as it came from the hub.  Which names are one to
the file system is a parameter: on Windows names that differ in case only are, on Linux none but the same.

* `StaysBelow`        the name of the file is relative, and no `..` in it leaves the folder;
* `fileNames`         the names from the folder to the file, as the file system keeps them;
* `downloads_apart`   the files of two jobs are in the folder and different exactly if both ids stay below
                      it and their names differ;
* `downloads_meet`    ids that do not.
-/

namespace PrintAgent

open PyPath (Flavour Path Place Cwd Name Naming)

section
variable (fl : Flavour) (ns : Naming)

/-- the place of the folder, and of the file that is opened for writing -/
def destPlace (cwd : Cwd) (destDir : String) : Place := cwd.resolve ns (fl.parse destDir.toList)

def filePlace (cwd : Cwd) (destDir jobId : String) : Place := cwd.resolve ns (downloadPath fl destDir jobId)

/-- the file's name is a relative path that does not leave the folder -/
def StaysBelow (jobId : String) : Prop :=
  (fl.parse (documentName jobId)).drive = [] ∧ (fl.parse (documentName jobId)).root = [] ∧
    (PyPath.within [] (fl.parse (documentName jobId)).parts).isSome = true

/-- the names from the folder to the file; `none` if a `..` leaves the folder on the way -/
def fileNames (jobId : String) : Option (List Name) :=
  (PyPath.within [] (fl.parse (documentName jobId)).parts).map fun names => names.map ns.kept

end

section
variable {fl : Flavour} {ns : Naming} {jobId : String} {names : List Name}

theorem StaysBelow.exists_within (h : StaysBelow fl jobId) :
    ∃ names, PyPath.within [] (fl.parse (documentName jobId)).parts = some names :=
  Option.isSome_iff_exists.mp h.2.2

theorem filePlace_of_staysBelow (h : StaysBelow fl jobId)
    (hnames : PyPath.within [] (fl.parse (documentName jobId)).parts = some names) (cwd : Cwd)
    (destDir : String) :
    (filePlace fl ns cwd destDir jobId).drive = (destPlace fl ns cwd destDir).drive ∧
      (filePlace fl ns cwd destDir jobId).names =
        (destPlace fl ns cwd destDir).names ++ names.map ns.kept := by
  obtain ⟨hdrive, hroot, -⟩ := h
  have hjoin : downloadPath fl destDir jobId = ⟨(fl.parse destDir.toList).drive,
      (fl.parse destDir.toList).root,
      (fl.parse destDir.toList).parts ++ (fl.parse (documentName jobId)).parts⟩ := by
    rw [downloadPath, Path.join, hroot, if_neg (fun h => h rfl), if_pos hdrive]
  rw [filePlace, hjoin]
  refine ⟨rfl, ?_⟩
  show (PyPath.walk _ (_ ++ _)).map ns.kept = (PyPath.walk _ _).map ns.kept ++ _
  rw [PyPath.walk_append, ← List.map_append]
  have hwalk := fun dir => PyPath.walk_within hnames dir
  simp only [List.append_nil] at hwalk
  rw [hwalk]

theorem within_ne_nil (h : StaysBelow fl jobId)
    (hnames : PyPath.within [] (fl.parse (documentName jobId)).parts = some names) : names ≠ [] := by
  obtain ⟨hdrive, hroot, -⟩ := h
  have hrest := PyPath.splitroot_keepsAll fl (documentName jobId) hdrive (PyPath.splitroot_root hroot)
  have hext : ∀ c ∈ ['.', 'p', 'd', 'f'], fl.isSep c = false := by
    cases fl <;> simp [PyPath.Flavour.isSep]
  obtain ⟨init, last, -, hsplit⟩ := PyPath.splitOnP_append (s := jobId.toList) hext
  have hlen : 4 ≤ (last ++ ['.', 'p', 'd', 'f']).length := by
    rw [List.length_append]
    exact Nat.le_add_left 4 _
  have hname : ∀ name : Name, name.length < 4 → last ++ ['.', 'p', 'd', 'f'] ≠ name := by
    rintro name hlt rfl
    omega
  have hparts : (fl.parse (documentName jobId)).parts =
      init.filter (fun name => name ≠ [] ∧ name ≠ PyPath.dot) ++ [last ++ ['.', 'p', 'd', 'f']] := by
    show fl.parts (fl.splitroot (documentName jobId)).rest = _
    rw [hrest, Flavour.parts, documentName, hsplit, List.filter_append]
    congr 1
    rw [List.filter_singleton]
    simp [hname PyPath.dot (by decide)]
  rw [hparts] at hnames
  exact PyPath.within_snoc (hname PyPath.dotDot (by decide)) hnames

section
variable {q : Path} {drive root other : Name}

theorem walk_singleton (h : other ≠ PyPath.dotDot) : PyPath.walk [] [other] = [other] := by
  show PyPath.walkStep [] other = _
  rw [PyPath.walkStep, if_neg h]
  rfl

/-- a root, or a `..` too many, leads out of a folder whose name is not in the path -/
theorem not_isBelow_of_leaves (hdrive : q.drive = []) (hroot : root ≠ [])
    (hleaves : q.root ≠ [] ∨ PyPath.within [] q.parts = none) (hother : other ≠ PyPath.dotDot)
    (hfresh : ns.kept other ∉ q.parts.map ns.kept) (cwd : Cwd) :
    ¬ (cwd.resolve ns ⟨drive, root, [other]⟩).IsBelow
      (cwd.resolve ns ((⟨drive, root, [other]⟩ : Path).join q)) := by
  rintro ⟨-, names, -, hbelow⟩
  have hdir : (cwd.resolve ns ⟨drive, root, [other]⟩).names = [ns.kept other] := by
    show (PyPath.walk (if root = [] then _ else []) [other]).map ns.kept = _
    rw [if_neg hroot, walk_singleton hother]
    rfl
  have hmem : ns.kept other ∈ (cwd.resolve ns ((⟨drive, root, [other]⟩ : Path).join q)).names := by
    rw [hbelow, hdir]
    exact List.mem_cons_self
  by_cases hq : q.root = []
  · have hnone := hleaves.resolve_left (fun h => h hq)
    rw [Path.join, if_neg (fun h => h hq), if_pos hdrive] at hmem
    have hwalk : ns.kept other ∈ (PyPath.walk [other] q.parts).map ns.kept := by
      have hmem : ns.kept other ∈
          (PyPath.walk (if root = [] then _ else []) ([other] ++ q.parts)).map ns.kept := hmem
      rw [if_neg hroot, PyPath.walk_append, walk_singleton hother] at hmem
      exact hmem
    exact PyPath.kept_notMem_walk hnone List.not_mem_nil hfresh hwalk
  · rw [Path.join, if_pos hq] at hmem
    have hwalk : ns.kept other ∈ (PyPath.walk (if q.root = [] then _ else []) q.parts).map ns.kept := hmem
    rw [if_neg hq] at hwalk
    exact PyPath.kept_notMem_walk_nil hfresh hwalk

end

theorem not_isBelow_of_drive {p q : Path} (hp : p.drive ≠ []) (hq : q.drive ≠ [])
    (hdrive : PyPath.sameDrive q.drive p.drive = false) (cwd : Cwd) :
    ¬ (cwd.resolve ns p).IsBelow (cwd.resolve ns (p.join q)) := by
  rintro ⟨hsame, -⟩
  have hjoin : (p.join q).drive = q.drive := by
    by_cases hroot : q.root = []
    · simp [Path.join, hroot, hq, hdrive]
    · simp [Path.join, hroot, hq]
  have hplace : ∀ r : Path, r.drive ≠ [] → (cwd.resolve ns r).drive = r.drive.map Char.toLower := by
    intro r hr
    show (if r.drive = [] then _ else _ : Name).map Char.toLower = _
    rw [if_neg hr]
  rw [hplace _ (hjoin ▸ hq), hplace _ hp, hjoin] at hsame
  rw [PyPath.sameDrive, hsame, decide_eq_false_iff_not] at hdrive
  exact hdrive rfl

/-- the name of a file that does not stay below the folder leads elsewhere from some folder -/
theorem exists_not_isBelow (h : ¬ StaysBelow fl jobId) (cwd : Cwd) :
    ∃ destDir, ¬ (destPlace fl ns cwd destDir).IsBelow (filePlace fl ns cwd destDir jobId) := by
  obtain ⟨other, hplain, hne, hdot, hdotDot, hfresh⟩ :=
    ns.exists_other (fl.parse (documentName jobId)).parts
  have hdest : ∀ letter, Flavour.windows.isSep letter = false → ∃ destDir : String,
      fl.parse destDir.toList = ⟨fl.absDrive letter, [fl.sep], [other]⟩ := by
    intro letter hletter
    refine ⟨String.ofList (fl.absText letter other), ?_⟩
    rw [String.toList_ofList]
    exact PyPath.parse_absText hplain hne hdot hletter
  by_cases hdrive : (fl.parse (documentName jobId)).drive = []
  · obtain ⟨destDir, hparse⟩ := hdest 'C' (by decide)
    refine ⟨destDir, ?_⟩
    rw [destPlace, filePlace, downloadPath, hparse]
    refine not_isBelow_of_leaves hdrive (List.cons_ne_nil _ _) ?_ hdotDot hfresh cwd
    by_cases hroot : (fl.parse (documentName jobId)).root = []
    · right
      by_contra hsome
      exact h ⟨hdrive, hroot, Option.isSome_iff_ne_none.mpr hsome⟩
    · exact .inl hroot
  · have hwindows : fl = .windows := by
      cases fl with
      | posix => exact absurd (PyPath.splitroot_posix_drive _) hdrive
      | windows => rfl
    -- one of two drives is another one
    obtain ⟨letter, hletter, hother⟩ : ∃ letter, Flavour.windows.isSep letter = false ∧
        PyPath.sameDrive (fl.parse (documentName jobId)).drive [letter, ':'] = false := by
      by_cases hc : (fl.parse (documentName jobId)).drive.map Char.toLower = ['c', ':']
      · refine ⟨'D', by decide, ?_⟩
        rw [PyPath.sameDrive, hc]
        decide
      · exact ⟨'C', by decide, decide_eq_false hc⟩
    obtain ⟨destDir, hparse⟩ := hdest letter hletter
    refine ⟨destDir, ?_⟩
    rw [destPlace, filePlace, downloadPath, hparse]
    subst hwindows
    exact not_isBelow_of_drive (List.cons_ne_nil _ _) hdrive hother cwd

/-- **A file is in every folder exactly if its name stays below.** -/
theorem isBelow_iff_staysBelow (cwd : Cwd) :
    (∀ destDir, (destPlace fl ns cwd destDir).IsBelow (filePlace fl ns cwd destDir jobId)) ↔
      StaysBelow fl jobId := by
  constructor
  · intro h
    by_contra hno
    obtain ⟨destDir, hbelow⟩ := exists_not_isBelow hno cwd
    exact hbelow (h destDir)
  · intro h destDir
    obtain ⟨names, hnames⟩ := h.exists_within
    obtain ⟨hdrive, hplace⟩ := filePlace_of_staysBelow h hnames cwd destDir
    refine ⟨hdrive, names.map ns.kept, fun hnil => ?_, hplace⟩
    exact within_ne_nil h hnames (List.map_eq_nil_iff.mp hnil)

/-- the files of two jobs whose names stay below are different exactly if the names are -/
theorem filePlace_ne_iff {jobId' : String} (h : StaysBelow fl jobId) (h' : StaysBelow fl jobId')
    (cwd : Cwd) (destDir : String) :
    filePlace fl ns cwd destDir jobId ≠ filePlace fl ns cwd destDir jobId' ↔
      fileNames fl ns jobId ≠ fileNames fl ns jobId' := by
  obtain ⟨names, hnames⟩ := h.exists_within
  obtain ⟨names', hnames'⟩ := h'.exists_within
  obtain ⟨hdrive, hplace⟩ := filePlace_of_staysBelow h hnames cwd destDir
  obtain ⟨hdrive', hplace'⟩ := filePlace_of_staysBelow h' hnames' cwd destDir
  rw [fileNames, fileNames, hnames, hnames', Option.map_some, Option.map_some, not_iff_not,
    Option.some_inj]
  constructor
  · intro heq
    rw [heq] at hplace
    rw [hplace] at hplace'
    rw [List.append_cancel_left hplace']
  · intro heq
    rw [heq] at hplace
    have hext : ∀ a b : Place, a.drive = b.drive → a.names = b.names → a = b := by
      rintro ⟨_, _⟩ ⟨_, _⟩ rfl rfl
      rfl
    exact hext _ _ (hdrive.trans hdrive'.symm) (hplace.trans hplace'.symm)

end

/-- **When the files of two jobs are in the download folder, and apart.** -/
theorem downloads_apart (fl : Flavour) (ns : Naming) (jobId jobId' : String) (cwd : Cwd) :
    (∀ destDir, (destPlace fl ns cwd destDir).IsBelow (filePlace fl ns cwd destDir jobId) ∧
      (destPlace fl ns cwd destDir).IsBelow (filePlace fl ns cwd destDir jobId') ∧
      filePlace fl ns cwd destDir jobId ≠ filePlace fl ns cwd destDir jobId') ↔
    StaysBelow fl jobId ∧ StaysBelow fl jobId' ∧ fileNames fl ns jobId ≠ fileNames fl ns jobId' := by
  constructor
  · intro h
    have hstays := (isBelow_iff_staysBelow cwd).mp fun destDir => (h destDir).1
    have hstays' := (isBelow_iff_staysBelow cwd).mp fun destDir => (h destDir).2.1
    exact ⟨hstays, hstays', (filePlace_ne_iff hstays hstays' cwd "").mp (h "").2.2⟩
  · rintro ⟨hstays, hstays', hne⟩ destDir
    exact ⟨(isBelow_iff_staysBelow cwd).mpr hstays destDir,
      (isBelow_iff_staysBelow cwd).mpr hstays' destDir,
      (filePlace_ne_iff hstays hstays' cwd destDir).mpr hne⟩

/-- an id that leads out of the folder, and two ids of one file -/
theorem downloads_meet :
    (¬ ∀ (fl : Flavour) (ns : Naming) (jobId destDir : String) (cwd : Cwd),
      (destPlace fl ns cwd destDir).IsBelow (filePlace fl ns cwd destDir jobId)) ∧
    ¬ ∀ (fl : Flavour) (ns : Naming) (jobId jobId' destDir : String) (cwd : Cwd), jobId ≠ jobId' →
      filePlace fl ns cwd destDir jobId ≠ filePlace fl ns cwd destDir jobId' := by
  constructor
  · intro h
    obtain ⟨-, names, -, hnames⟩ := h .posix .exact "../config" "/agent/downloads" ⟨[], fun _ => []⟩
    have hfile : (filePlace .posix .exact ⟨[], fun _ => []⟩ "/agent/downloads" "../config").names
        = ["agent".toList, "config.pdf".toList] := by decide
    have hdir : (destPlace .posix .exact ⟨[], fun _ => []⟩ "/agent/downloads").names
        = ["agent".toList, "downloads".toList] := by decide
    rw [hfile, hdir] at hnames
    have hname : "config.pdf".toList = "downloads".toList := (List.cons.inj (List.cons.inj hnames).2).1
    revert hname
    decide
  · intro h
    exact h .windows (.caseless Char.toLower) "a" "A" "C:\\agent\\downloads" ⟨['c', ':'], fun _ => []⟩
      (by decide) (by decide)

end PrintAgent
