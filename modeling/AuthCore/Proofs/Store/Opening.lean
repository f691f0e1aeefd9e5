import AuthCore.Proofs.Files.Tree
import AuthCore.Proofs.Startup
import AuthCore.Proofs.Text.Order
import AuthCore.Store.Opening

/-!
# The file that is prepared and the file that is opened

The program makes sure of the file of a database under the name that stands in the address
(`DatabaseAddress.path?`). The driver reads the address once more, for itself: there the beginning
may be repeated, a name may have percent escapes, and an option may move the database into memory
(`DatabaseAddress.options?`). Where an address has none of these (`DatabaseAddress.IsPlain`), the
file that was prepared is the one that is opened, and there is no other. Where the name has an
escape, the prepared file stays behind unused, and the driver looks for another one.
-/

namespace AuthCore

/-! ### Names without escapes -/

namespace Text

/-- A text without percent signs stands for itself. -/
theorem percentBytes_of_not_mem {cs : List Char} (h : '%' ∉ cs) :
    percentBytes cs = utf8 (String.ofList cs) := by
  induction cs with
  | nil => simp [percentBytes, utf8_eq]
  | cons c cs ih =>
    obtain ⟨hc, hcs⟩ := List.ne_and_not_mem_of_not_mem_cons h
    have hcons : percentBytes (c :: cs) = utf8 (String.singleton c) ++ percentBytes cs := by
      rw [percentBytes]
      rintro a b rest rfl
      exact absurd rfl hc
    rw [hcons, ih hcs]
    simp [utf8_eq]

theorem percentDecode?_of_not_mem {s : String} (h : '%' ∉ s.toList) :
    percentDecode? s = some s := by
  rw [percentDecode?, percentBytes_of_not_mem h, String.ofList_toList, ofUtf8?_utf8]

end Text

/-! ### The two readers of an address -/

namespace DatabaseAddress

variable {url path : String} {o : DatabaseOptions} {start cs rest : List Char}

theorem behind?_eq_some_iff : behind? start cs = some rest ↔ cs = start ++ rest := by
  rw [behind?]
  constructor
  · intro h
    split at h
    next hstart =>
      obtain ⟨tail, rfl⟩ := List.isPrefixOf_iff_prefix.1 hstart
      simpa using h
    next => cases h
  · rintro rfl
    simp

theorem behind?_eq_none_iff : behind? start cs = none ↔ ¬ start <+: cs := by
  simp [behind?]

theorem behindAll_of_missing (h : ¬ start <+: cs) (n : Nat) : behindAll start n cs = cs := by
  cases n with
  | zero => rfl
  | succ n => rw [behindAll, behind?_eq_none_iff.2 h]

theorem behindAll_append (h : ¬ start <+: rest) {n : Nat} (hn : 0 < n) :
    behindAll start n (start ++ rest) = rest := by
  obtain ⟨n, rfl⟩ := Nat.exists_eq_succ_of_ne_zero hn.ne'
  rw [behindAll, behind?_eq_some_iff.2 rfl]
  exact behindAll_of_missing h n

/-- What stands behind the beginning of an address, as this program and as the driver reads it: the
same if the beginning is not repeated. -/
theorem behindAll_of_behind? (h : (behind? "sqlite://".toList url.toList).or
    (behind? "sqlite:".toList url.toList) = some rest) (honce : ¬ "sqlite:".toList <+: rest) :
    behindAll "sqlite:".toList url.length (behindAll "sqlite://".toList url.length url.toList) =
      rest := by
  have honce' : ¬ "sqlite://".toList <+: rest := fun hlong =>
    honce (List.IsPrefix.trans ⟨"//".toList, rfl⟩ hlong)
  have hpos {start : List Char} (hne : start ≠ []) (he : url.toList = start ++ rest) :
      0 < url.length := by
    rw [← String.length_toList, he, List.length_append]
    have := List.length_pos_iff.2 hne
    omega
  rcases Option.or_eq_some_iff.1 h with hlong | ⟨hlong, hshort⟩
  · have he := behind?_eq_some_iff.1 hlong
    rw [he, behindAll_append honce' (hpos (by decide) he)]
    exact behindAll_of_missing honce _
  · have he := behind?_eq_some_iff.1 hshort
    rw [behindAll_of_missing (behind?_eq_none_iff.1 hlong)]
    rw [he, behindAll_append honce (hpos (by decide) he)]

/-- An option leaves the database in its file or moves it into memory. -/
theorem withOption_file {p : String × String} {o o' : DatabaseOptions}
    (h : withOption o p = some o') : o'.file = o.file ∨ o'.file = none := by
  rw [withOption.eq_def] at h
  grind

theorem withOptions_file {ps : List (String × String)} {o o' : DatabaseOptions}
    (h : ps.foldlM withOption o = some o') : o'.file = o.file ∨ o'.file = none := by
  induction ps generalizing o with
  | nil =>
    cases h
    exact .inl rfl
  | cons p ps ih =>
    rw [List.foldlM_cons] at h
    obtain ⟨o₁, hfirst, hrest⟩ := Option.bind_eq_some_iff.1 h
    rcases ih hrest with he | hnone
    · rw [he]
      exact withOption_file hfirst
    · exact .inr hnone

/-- An address whose file has the same name for the program and for the driver: the name has no
escapes, the beginning is not repeated, and the options, which are all known, leave the database in
its file. -/
structure IsPlain (url path : String) (o : DatabaseOptions) : Prop where
  prepared : path? url = some path
  unescaped : '%' ∉ path.toList
  once : ¬ "sqlite:".toList <+: path.toList
  options : options? url = some o
  inFile : o.file ≠ none

theorem path?_eq_some (h : path? url = some path) :
    ∃ rest, (behind? "sqlite://".toList url.toList).or
        (behind? "sqlite:".toList url.toList) = some rest ∧
      path.toList = rest.takeWhile (· != '?') := by
  rw [path?] at h
  obtain ⟨_, -, h⟩ := Option.bind_eq_some_iff.1 h
  obtain ⟨rest, hrest, h⟩ := Option.bind_eq_some_iff.1 h
  cases h
  exact ⟨rest, hrest, String.toList_ofList⟩

/-- The driver opens the file that the program prepares. -/
theorem IsPlain.file (h : IsPlain url path o) : o.file = some path := by
  obtain ⟨rest, hrest, hpath⟩ := path?_eq_some h.prepared
  have honce : ¬ "sqlite:".toList <+: rest := by
    intro hrepeated
    have hname : "sqlite:".toList <+: rest.takeWhile (· != '?') := by
      obtain ⟨tail, rfl⟩ := hrepeated
      rw [List.takeWhile_append_of_pos (by simp)]
      exact List.prefix_append _ _
    exact h.once (hpath ▸ hname)
  have hname : String.ofList (rest.takeWhile (· != '?')) = path := by
    rw [← hpath, String.ofList_toList]
  have hread := h.options
  simp only [options?, behindAll_of_behind? hrest honce, hname,
    Text.percentDecode?_of_not_mem h.unescaped] at hread
  split at hread
  next =>
    have hmemory := withOptions_file hread
    exact absurd (hmemory.elim id id) h.inFile
  next => exact (withOptions_file hread).resolve_right h.inFile

end DatabaseAddress

/-! ### Making sure of a file -/

namespace Connection

variable {url path : String} {g g' : Ground}

/-- Makes directories on the way to a file. -/
def makeParent (path : String) (files : FileTree) : Answer Unit × FileTree :=
  match Path.parent? path with
  | none => (.ok (), files)
  | some parent =>
    if parent ≠ "" && !files.contains parent then
      let (done, files) := files.makeDirectories parent
      (if done then .ok () else .error (.config (.databaseDirectory parent)), files)
    else (.ok (), files)

/-- Makes a file unless something is there. -/
def makeFile (path : String) (files : FileTree) : Answer Unit × FileTree :=
  if files.contains path then (.ok (), files)
  else
    let (done, files) := files.createFile path
    (if done then .ok () else .error (.config (.databaseFile path)), files)

/-- What is done to the files to make sure of a file. -/
def prepare (path : String) (files : FileTree) : Answer Unit × FileTree :=
  match makeParent path files with
  | (.ok (), files) => makeFile path files
  | failed => failed

/-- Makes sure of a file in a directory that is there. -/
def ensureFileAt (path : String) : Startup Unit := do
  if !(← get).files.contains path then
    Startup.create (·.createFile path) (.config (.databaseFile path))
    Startup.log (.fileCreated path)

theorem perform_ensureFileAt (path : String) (g : Ground) :
    ((ensureFileAt path).perform g).1 = (makeFile path g.files).1 ∧
      ((ensureFileAt path).perform g).2.files = (makeFile path g.files).2 := by
  unfold ensureFileAt makeFile
  rw [Startup.perform_bind_ok Startup.perform_get]
  cases g.files.contains path with
  | true => exact ⟨rfl, rfl⟩
  | false =>
    simp only [Bool.not_false, if_true, Bool.false_eq_true, if_false]
    rw [Startup.perform_bind, Startup.perform_create]
    rcases g.files.createFile path with ⟨_ | _, files⟩ <;> exact ⟨rfl, rfl⟩

/-- Making sure of a file looks at nothing but the files. -/
theorem perform_ensureFile (hpath : DatabaseAddress.path? url = some path) (g : Ground) :
    ((ensureFile url).perform g).1 = (prepare path g.files).1 ∧
      ((ensureFile url).perform g).2.files = (prepare path g.files).2 := by
  unfold ensureFile prepare makeParent
  simp only [hpath]
  rcases Path.parent? path with _ | parent
  · exact perform_ensureFileAt path g
  · simp only
    rw [Startup.perform_bind_ok Startup.perform_get]
    split
    · rw [Startup.perform_bind, Startup.perform_create]
      rcases g.files.makeDirectories parent with ⟨_ | _, files⟩
      · exact ⟨rfl, rfl⟩
      · simp only [if_true]
        rw [Startup.perform_bind_ok (Startup.perform_log _)]
        exact perform_ensureFileAt path _
    · exact perform_ensureFileAt path g

theorem grown_makeParent (path : String) (files : FileTree) :
    files.Grown FileTree.IsDirectory (makeParent path files).2 := by
  rw [makeParent]
  split
  · exact .refl files
  · split
    · exact FileTree.grown_makeDirectories _ files
    · exact .refl files

/-- What is new when a file at a place is prepared: directories, and an empty file there. -/
def IsPrepared (place q : Place) (n : FileNode) : Prop := n = .directory ∨ q = place ∧ n = .text ""

/-- A path that could be prepared leads to something, to an empty file if nothing was there. -/
theorem prepare_eq_ok {files files' : FileTree} (h : prepare path files = (.ok (), files')) :
    ∃ place node, files'.find path = .taken place node ∧
      files.Grown (IsPrepared place) files' := by
  have hgrown := grown_makeParent path files
  rw [prepare] at h
  split at h
  next t hparent =>
    rw [hparent] at hgrown
    rw [makeFile] at h
    split at h
    next hthere =>
      obtain ⟨-, rfl⟩ := Prod.mk.inj h
      obtain ⟨place, node, hfind⟩ := FileTree.contains_iff.1 hthere
      exact ⟨place, node, hfind, hgrown.mono fun q n hn => .inl hn⟩
    next hmissing =>
      rcases hmade : t.createFile path with ⟨_ | _, u⟩ <;> rw [hmade] at h
      · cases h
      · obtain ⟨place, hfree, rfl⟩ := FileTree.createFile_eq_true hmade
        obtain ⟨-, rfl⟩ := Prod.mk.inj h
        refine ⟨place, .text "", FileTree.find_put hfree, ?_⟩
        exact (hgrown.mono fun q n hn => .inl hn).trans
          (.put (FileTree.node?_of_find_free hfree) (.inr ⟨rfl, rfl⟩))
  next hfailed => exact absurd h (hfailed files')

/-! ### Opening what was prepared -/

theorem exists_databaseIn {node : FileNode} (h : node ≠ .directory) :
    ∃ db, databaseIn node = some db := by
  fun_cases databaseIn node with
  | case1 => exact absurd rfl h
  | case2 => exact ⟨_, rfl⟩
  | case3 => exact ⟨_, rfl⟩
  | case4 => exact ⟨_, rfl⟩

theorem openFile_of_taken {place : Place} {node : FileNode} {files : FileTree}
    (h : files.find path = .taken place node) (o : DatabaseOptions) :
    openFile path o files =
      (databaseIn node).map fun db =>
        (⟨some place, { db with readOnly := o.readOnly }⟩, files) := by
  rw [openFile, h]

theorem perform_connect {c : DatabaseConfig} {o : DatabaseOptions}
    (hplain : DatabaseAddress.IsPlain c.url path o)
    (hscheme : Address.scheme? c.url = some "sqlite")
    (hroom : c.maxConnections ≠ 0 ∧ c.connectTimeout ≠ 0) (g : Ground) :
    (connect c).perform g =
      match openFile path o g.files with
      | some (connection, files) => (.ok connection, { g with files := files })
      | none => (.error (.database .connect), g) := by
  have hopen : openAt c.url g.files = openFile path o g.files := by
    simp [openAt, hscheme, hplain.options, hplain.file]
  have hconnects : ¬ (c.maxConnections = 0 || c.connectTimeout = 0) = true := by simpa using hroom
  unfold connect Startup.perform
  simp only [ExceptT.run, StateT.run]
  rw [if_neg hconnects, hopen]
  rfl

/-- The file of a plain address is opened once it is prepared. -/
theorem perform_forConfig {c : DatabaseConfig} {o : DatabaseOptions} {place : Place}
    {node : FileNode} {files : FileTree} (hplain : DatabaseAddress.IsPlain c.url path o)
    (hscheme : Address.scheme? c.url = some "sqlite")
    (hroom : c.maxConnections ≠ 0 ∧ c.connectTimeout ≠ 0)
    (hprepare : prepare path g.files = (.ok (), files))
    (hfind : files.find path = .taken place node) :
    ∃ g', g'.files = files ∧ (forConfig c).perform g =
      match databaseIn node with
      | some db => (.ok ⟨some place, { db with readOnly := o.readOnly }⟩, g')
      | none => (.error (.database .connect), g') := by
  rw [forConfig, Startup.perform_bind_ok (Startup.perform_log _)]
  generalize hlogged : ({ g with log := g.log ++ _ } : Ground) = h
  have hensured := perform_ensureFile hplain.prepared h
  rw [show h.files = g.files by rw [← hlogged], hprepare] at hensured
  obtain ⟨hok, hfiles⟩ := hensured
  rw [Startup.perform_bind_ok (Prod.ext hok rfl), Startup.perform_bind,
    perform_connect hplain hscheme hroom, hfiles, openFile_of_taken hfind]
  cases databaseIn node with
  | none => exact ⟨_, hfiles, rfl⟩
  | some db => exact ⟨_, rfl, rfl⟩

/-- The file of a plain address is opened after it was prepared: the path leads to it, it is the
only file that is new, if it is new, and what was there before is still there. -/
theorem opens_prepared_file {c : DatabaseConfig} {o : DatabaseOptions}
    (hplain : DatabaseAddress.IsPlain c.url path o)
    (hscheme : Address.scheme? c.url = some "sqlite")
    (hroom : c.maxConnections ≠ 0 ∧ c.connectTimeout ≠ 0)
    (hmade : (ensureFile c.url).perform g = (.ok (), g')) :
    ∃ place node, g'.files.find path = .taken place node ∧
      g.files.Grown (IsPrepared place) g'.files ∧
      (∀ q m, g.files.find path = .taken q m → q = place ∧ m = node) ∧
      ((forConfig c).perform g).2.files = g'.files ∧
      (node ≠ .directory → ∃ db, databaseIn node = some db ∧
        ((forConfig c).perform g).1 = .ok ⟨some place, { db with readOnly := o.readOnly }⟩) := by
  have hprepare : prepare path g.files = (.ok (), g'.files) := by
    have h := perform_ensureFile hplain.prepared g
    rw [hmade] at h
    exact Prod.ext h.1.symm h.2.symm
  obtain ⟨place, node, hfind, hgrown⟩ := prepare_eq_ok hprepare
  have hkept : ∀ q m, g.files.find path = .taken q m → q = place ∧ m = node := by
    intro q m hq
    obtain ⟨rfl, rfl⟩ := Spot.taken.inj ((hgrown.find hq).symm.trans hfind)
    exact ⟨rfl, rfl⟩
  refine ⟨place, node, hfind, hgrown, hkept, ?_⟩
  obtain ⟨g'', hfiles, hanswer⟩ := perform_forConfig hplain hscheme hroom hprepare hfind
  rw [hanswer]
  rcases hdb : databaseIn node with _ | db
  · refine ⟨hfiles, fun hne => ?_⟩
    obtain ⟨db, hsome⟩ := exists_databaseIn hne
    rw [hdb] at hsome
    cases hsome
  · exact ⟨hfiles, fun _ => ⟨db, rfl, rfl⟩⟩

/-- A directory is there already, and the file in it is not: it is prepared and opened, and nothing
else is new. -/
theorem opens_prepared_file_nested :
    (∃ db, ((forConfig { url := "sqlite://./data/auth.db?mode=rwc" }).perform
        ⟨.ofFiles ["work"] [("data/readme", "")], [], none, []⟩).1 =
      .ok ⟨some ["work", "data", "auth.db"], db⟩) ∧
    ((forConfig { url := "sqlite://./data/auth.db?mode=rwc" }).perform
        ⟨.ofFiles ["work"] [("data/readme", "")], [], none, []⟩).2.files.nodes.keys =
      [["work"], ["work", "data"], ["work", "data", "auth.db"], ["work", "data", "readme"]] := by
  have hplain : DatabaseAddress.IsPlain "sqlite://./data/auth.db?mode=rwc" "./data/auth.db"
      ⟨some "./data/auth.db", false, true⟩ :=
    ⟨by decide +kernel, by decide, by decide, by decide +kernel, by decide⟩
  obtain ⟨place, node, hfind, -, -, hfiles, hopened⟩ :=
    opens_prepared_file (c := { url := "sqlite://./data/auth.db?mode=rwc" }) hplain
      (by decide +kernel) ⟨by decide, by decide⟩
      (g := ⟨.ofFiles ["work"] [("data/readme", "")], [], none, []⟩) (Prod.ext rfl rfl)
  have hspot : ((ensureFile "sqlite://./data/auth.db?mode=rwc").perform
      ⟨.ofFiles ["work"] [("data/readme", "")], [], none, []⟩).2.files.find "./data/auth.db" =
        .taken ["work", "data", "auth.db"] (.text "") := by rfl
  obtain ⟨rfl, rfl⟩ := Spot.taken.inj (hspot.symm.trans hfind)
  obtain ⟨db, -, hanswer⟩ := hopened (by simp)
  exact ⟨⟨_, hanswer⟩, hfiles ▸ by decide +kernel⟩

/-- A file whose name has an escape in the address is prepared under the name with the escape and
looked for under another one: it stays behind, and the start fails or makes a second file. -/
theorem escaped_file_is_not_opened :
    let g : Ground := ⟨.ofFiles ["work"] [], [], none, []⟩
    let url := "sqlite://a%20b.db"
    let creating := "sqlite://a%20b.db?mode=rwc"
    (DatabaseAddress.isFile url = true ∧ DatabaseAddress.path? url = some "a%20b.db" ∧
      ((ensureFile url).perform g).1 = .ok () ∧
      ((forConfig { url := url }).perform g).1 = .error (.database .connect) ∧
      ((forConfig { url := url }).perform g).2.files.nodes.keys =
        [["work"], ["work", "a%20b.db"]]) ∧
    (DatabaseAddress.isFile creating = true ∧ DatabaseAddress.path? creating = some "a%20b.db" ∧
      ((ensureFile creating).perform g).1 = .ok () ∧
      ((forConfig { url := creating }).perform g).1 = .ok ⟨some ["work", "a b.db"], .empty⟩ ∧
      ((forConfig { url := creating }).perform g).2.files.nodes.keys =
        [["work"], ["work", "a b.db"], ["work", "a%20b.db"]]) := by
  refine ⟨⟨?_, ?_, ?_, ?_, ?_⟩, ?_, ?_, ?_, ?_, ?_⟩
  · decide +kernel
  · decide +kernel
  · rfl
  · rfl
  · decide +kernel
  · decide +kernel
  · decide +kernel
  · rfl
  · rfl
  · decide +kernel

end Connection

end AuthCore
