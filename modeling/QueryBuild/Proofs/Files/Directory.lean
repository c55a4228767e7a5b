import QueryBuild.Proofs.Files.Change
import QueryBuild.Proofs.Files.Names
import QueryBuild.Proofs.Path.Component
/-!
# The entries of one directory

The entries of a directory without links are told apart by their paths. As long as only some of
them are written or removed, everything else stays as it is.
-/

namespace QueryBuild

namespace Path

/-- A path to an entry of the directory that some names lead to. -/
def IsEntry (names : List String) (path : Path) : Prop :=
  ∃ name, IsOrdinary name ∧ path = rooted (names ++ [name])

/-- Where the entry lies that a path names in a directory. -/
def locationIn (path : Path) (directory : Location) : Location :=
  directory ++ [FileName.ofText (path.fileName?.getD "")]

theorem locationIn_rooted {names : List String} (hnames : ∀ n ∈ names, IsOrdinary n) {name : String}
    (hname : IsOrdinary name) (directory : Location) :
    (rooted (names ++ [name])).locationIn directory = directory ++ [FileName.ofText name] := by
  rw [locationIn, fileName?_rooted hnames hname]
  rfl

theorem rooted_concat_inj {names : List String} (hnames : ∀ n ∈ names, IsOrdinary n)
    {first second : String} (hfirst : IsOrdinary first) (hsecond : IsOrdinary second) :
    rooted (names ++ [first]) = rooted (names ++ [second]) ↔ first = second := by
  constructor
  · intro heq
    have hname := fileName?_rooted hnames hfirst
    rw [heq, fileName?_rooted hnames hsecond] at hname
    exact (Option.some.inj hname).symm
  · intro heq
    subst heq
    rfl

theorem IsEntry.ordinary {names : List String} (hnames : ∀ n ∈ names, IsOrdinary n) {path : Path}
    (h : path.IsEntry names) (directory : Location) :
    ∃ name, IsOrdinary name ∧ path = rooted (names ++ [name]) ∧
      path.locationIn directory = directory ++ [FileName.ofText name] := by
  obtain ⟨name, hname, rfl⟩ := h
  exact ⟨name, hname, rfl, locationIn_rooted hnames hname directory⟩

theorem locationIn_ne_nil (path : Path) (directory : Location) :
    path.locationIn directory ≠ [] := by
  simp [locationIn]

theorem dropLast_locationIn (path : Path) (directory : Location) :
    (path.locationIn directory).dropLast = directory := by
  rw [locationIn, List.dropLast_concat]

theorem locationIn_ne (path : Path) (directory : Location) :
    path.locationIn directory ≠ directory := by
  simp [locationIn]

theorem locationIn_inj {names : List String} (hnames : ∀ n ∈ names, IsOrdinary n)
    {first second : Path} (hfirst : first.IsEntry names) (hsecond : second.IsEntry names)
    {directory : Location} :
    first.locationIn directory = second.locationIn directory ↔ first = second := by
  obtain ⟨name, hname, rfl⟩ := hfirst
  obtain ⟨other, hother, rfl⟩ := hsecond
  rw [locationIn_rooted hnames hname, locationIn_rooted hnames hother,
    rooted_concat_inj hnames hname hother]
  simp [FileName.ofText_inj]

end Path

namespace FileSystem

/-- A path leads to a directory at a location, and there are no links in it. -/
structure FlatAt (fs : FileSystem) (path : Path) (directory : Location) : Prop where
  found : ∃ time, fs.find path = .ok (directory, .directory time)
  noLink : ∀ name target, fs.get? (directory ++ [name]) ≠ some (.link target)

/-- Only the entries that some paths name in a directory change, while the clock goes on. -/
structure TouchedOnly (directory : Location) (paths : List Path) (fs fs' : FileSystem) : Prop where
  shape : SameShape fs fs'
  now : fs.now ≤ fs'.now
  kept : ∀ other, other ≠ directory → (∀ path ∈ paths, other ≠ path.locationIn directory) →
    fs'.get? other = fs.get? other

/-- A path goes on leading to what it led to. -/
def SameAt (fs fs' : FileSystem) (path : Path) : Prop :=
  ∀ found, fs'.find path = .ok found ↔ fs.find path = .ok found

/-- The files at another time. -/
def setClock (fs : FileSystem) (time : Instant) : FileSystem :=
  { fs with now := time }

/-- Files are well kept if there is one directory, which holds all others by ordinary names. -/
theorem WellKept.of_listing {fs : FileSystem} {time : Instant} (directory : String)
    (names : List String) (hworking : fs.workingDirectory = [])
    (hdirectory : fs.get? [FileName.ofText directory] = some (.directory time))
    (hlocations : fs.entries.map Prod.fst = [FileName.ofText directory] ::
      names.map fun name => [FileName.ofText directory, FileName.ofText name])
    (hordinary : ∀ name ∈ directory :: names, IsOrdinary name) : fs.WellKept := by
  have hcases : ∀ known ∈ fs.entries, known.1 = [FileName.ofText directory] ∨
      ∃ name ∈ names, known.1 = [FileName.ofText directory, FileName.ofText name] := by
    intro known hknown
    have hlocation : known.1 ∈ fs.entries.map Prod.fst := List.mem_map_of_mem hknown
    rw [hlocations, List.mem_cons, List.mem_map] at hlocation
    exact hlocation.imp_right fun ⟨name, hname, heq⟩ => ⟨name, hname, heq.symm⟩
  have hproper : ∀ name ∈ directory :: names, (FileName.ofText name).IsProper :=
    fun name hname => FileName.isProper_ofText (hordinary name hname)
  refine ⟨by simp [hworking], ?_, ?_⟩
  · intro known hknown part hpart
    rcases hcases known hknown with heq | ⟨name, hname, heq⟩
    · rw [heq, List.mem_singleton] at hpart
      exact hpart ▸ hproper directory List.mem_cons_self
    · rw [heq, List.mem_pair] at hpart
      rcases hpart with rfl | rfl
      · exact hproper directory List.mem_cons_self
      · exact hproper name (List.mem_cons_of_mem _ hname)
  · intro location name hsome
    obtain ⟨entry, hentry⟩ := Option.ne_none_iff_exists'.mp hsome
    have hmem := mem_entries_of_get? (by simp) hentry
    have hhome : location = (location ++ [name]).dropLast := List.dropLast_concat.symm
    rcases hcases _ hmem with heq | ⟨other, -, heq⟩
    · rw [hhome, show location ++ [name] = _ from heq]
      exact get?_root fs
    · rw [hhome, show location ++ [name] = _ from heq]
      exact ⟨time, hdirectory⟩

section

variable {names : List String} {base : Location} {paths : List Path} {path : Path}
  {fs fs' fs'' : FileSystem}

theorem find_of_sameShape (h : SameShape fs fs') {location : Location} {entry : Entry}
    (hf : fs.find path = .ok (location, entry)) (hget : fs'.get? location = fs.get? location) :
    fs'.find path = .ok (location, entry) := by
  rw [find_eq_ok, resolve_of_sameShape h (find_eq_ok.mp hf), hget, get?_of_find hf]

theorem FlatAt.isDirectory (h : fs.FlatAt path base) :
    ∃ time, fs.get? base = some (.directory time) := by
  obtain ⟨time, hfound⟩ := h.found
  exact ⟨time, get?_of_find hfound⟩

theorem FlatAt.of_sameShape (h : fs.FlatAt path base) (hshape : SameShape fs fs') :
    fs'.FlatAt path base := by
  obtain ⟨time, hfound⟩ := h.found
  obtain ⟨time', hd⟩ := hshape.directory h.isDirectory.choose_spec
  refine ⟨⟨time', ?_⟩, fun name target hlink => h.noLink name target (hshape.symm.link hlink)⟩
  rw [find_eq_ok, resolve_of_sameShape hshape (find_eq_ok.mp hfound), hd]

/-- The paths of the entries of a directory without links lead to them. -/
theorem FlatAt.leads (h : fs.FlatAt (Path.rooted names) base)
    (hnames : ∀ n ∈ names, IsOrdinary n) (hpath : path.IsEntry names) :
    fs.Leads path (path.locationIn base) := by
  obtain ⟨name, hname, hrooted, hlocation⟩ := hpath.ordinary hnames base
  obtain ⟨time, hfound⟩ := h.found
  rw [hlocation, hrooted]
  exact leads_rooted hnames hfound hname (h.noLink _)

theorem TouchedOnly.refl (base : Location) (paths : List Path) (fs : FileSystem) :
    TouchedOnly base paths fs fs :=
  ⟨SameShape.refl fs, Int.le_refl _, fun _ _ _ => rfl⟩

theorem TouchedOnly.trans (h : TouchedOnly base paths fs fs')
    (h' : TouchedOnly base paths fs' fs'') : TouchedOnly base paths fs fs'' :=
  ⟨h.shape.trans h'.shape, Int.le_trans h.now h'.now, fun other hne hpaths =>
    (h'.kept other hne hpaths).trans (h.kept other hne hpaths)⟩

theorem TouchedOnly.mono {more : List Path} (h : TouchedOnly base paths fs fs')
    (hsub : paths ⊆ more) : TouchedOnly base more fs fs' :=
  ⟨h.shape, h.now, fun other hne hmore => h.kept other hne fun path hp => hmore path (hsub hp)⟩

theorem touchedOnly_setClock {time : Instant} (h : fs.now ≤ time) :
    TouchedOnly base paths fs (fs.setClock time) :=
  ⟨⟨rfl, fun _ => rfl⟩, h, fun _ _ _ => rfl⟩

theorem ChangedAt.touchedOnly (h : ChangedAt fs fs' (path.locationIn base))
    (hd : ∃ time, fs.get? base = some (.directory time))
    (hbefore : fs.NoPassage (path.locationIn base))
    (hafter : fs'.NoPassage (path.locationIn base)) :
    TouchedOnly base [path] fs fs' := by
  obtain ⟨time, hd⟩ := hd
  have hdrop := path.dropLast_locationIn base
  refine ⟨h.sameShape (by rw [hdrop]; exact hd) hbefore hafter, Int.le_of_eq h.now.symm,
    fun other hne hpaths => ?_⟩
  exact h.elsewhere other (hpaths path (by simp)) (by rw [hdrop]; exact hne)

theorem TouchedOnly.sameAt (h : TouchedOnly base paths fs fs')
    (hflat : fs.FlatAt (Path.rooted names) base) (hnames : ∀ n ∈ names, IsOrdinary n)
    (hpaths : ∀ other ∈ paths, other.IsEntry names) (hpath : path.IsEntry names)
    (hnot : path ∉ paths) : SameAt fs fs' path := by
  have hget : fs'.get? (path.locationIn base) = fs.get? (path.locationIn base) := by
    apply h.kept _ (path.locationIn_ne base)
    intro other hother hsame
    rw [Path.locationIn_inj hnames hpath (hpaths other hother)] at hsame
    exact hnot (hsame ▸ hother)
  have hleads := hflat.leads hnames hpath
  intro hcase
  rcases hcase with ⟨location, entry⟩
  constructor
  · intro hf
    have hsame := ((hleads.of_sameShape h.shape).find hf).1
    exact find_of_sameShape h.shape.symm hf (by rw [hsame]; exact hget.symm)
  · intro hf
    have hsame := (hleads.find hf).1
    exact find_of_sameShape h.shape hf (by rw [hsame]; exact hget)

theorem SameAt.refl (fs : FileSystem) (path : Path) : SameAt fs fs path :=
  fun _ => Iff.rfl

theorem SameAt.trans (h : SameAt fs fs' path) (h' : SameAt fs' fs'' path) : SameAt fs fs'' path :=
  fun found => (h' found).trans (h found)

theorem SameAt.read (h : SameAt fs fs' path) (contents : ByteArray) :
    fs'.read path = .ok contents ↔ fs.read path = .ok contents := by
  rw [read_eq_ok, read_eq_ok]
  simp only [h _]

theorem SameAt.readText (h : SameAt fs fs' path) (text : String) :
    fs'.readText path = .ok text ↔ fs.readText path = .ok text := by
  rw [readText_eq_ok, readText_eq_ok, h.read]

theorem modified_eq_ok {time : Instant} :
    fs.modified path = .ok time ↔ ∃ found, fs.find path = .ok found ∧ found.2.modified = time := by
  rw [modified]
  cases fs.find path with
  | error e => simp [Except.map]
  | ok found => simp [Except.map]

theorem SameAt.modified (h : SameAt fs fs' path) (time : Instant) :
    fs'.modified path = .ok time ↔ fs.modified path = .ok time := by
  rw [modified_eq_ok, modified_eq_ok]
  simp only [h _]

theorem resolve_of_write {contents : ByteArray} (hw : fs.write path contents = .ok fs') :
    ∃ found, fs.resolve true path = .ok found := by
  rw [write] at hw
  split at hw
  · cases hw
  · exact ⟨_, ‹_›⟩
  · exact ⟨_, ‹_›⟩
  · cases hw

theorem resolve_of_remove (hr : fs.remove path = .ok fs') :
    ∃ found, fs.resolve false path = .ok found := by
  rw [remove] at hr
  split at hr
  · cases hr
  · cases hr
  · exact ⟨_, ‹_›⟩

theorem FlatAt.write (h : fs.FlatAt (Path.rooted names) base) (hnames : ∀ n ∈ names, IsOrdinary n)
    (hpath : path.IsEntry names) {contents : ByteArray} (hw : fs.write path contents = .ok fs') :
    TouchedOnly base [path] fs fs' ∧ ∃ executable,
      fs'.find path = .ok (path.locationIn base, .file contents fs.now executable) := by
  have hleads := h.leads hnames hpath
  have hnonempty := path.locationIn_ne_nil base
  obtain ⟨time, hd⟩ := h.isDirectory
  obtain ⟨hbefore, hchanged, executable, hafter⟩ := hleads.write hnonempty
    (by rw [path.dropLast_locationIn]; exact hd) hw
  have htouched := hchanged.touchedOnly ⟨time, hd⟩ hbefore (by rw [NoPassage, hafter]; rfl)
  refine ⟨htouched, executable, ?_⟩
  obtain ⟨found, hfound⟩ := resolve_of_write hw
  have hsame := hleads true found hfound
  rw [hsame] at hfound
  rw [find_eq_ok, resolve_of_sameShape htouched.shape hfound, hafter]

theorem FlatAt.setExecutable (h : fs.FlatAt (Path.rooted names) base)
    (hnames : ∀ n ∈ names, IsOrdinary n) (hpath : path.IsEntry names) {location : Location}
    {contents : ByteArray} {modified : Instant} {before executable : Bool}
    (hfile : fs.find path = .ok (location, .file contents modified before))
    (hs : fs.setExecutable path executable = .ok fs') :
    TouchedOnly base [path] fs fs' ∧
      fs'.find path = .ok (location, .file contents modified executable) := by
  have hleads := h.leads hnames hpath
  obtain ⟨time, hd⟩ := h.isDirectory
  obtain ⟨rfl, hentry⟩ := hleads.find hfile
  obtain ⟨hchanged, hafter⟩ := hleads.setExecutable (path.locationIn_ne_nil base)
    (by rw [path.dropLast_locationIn]; exact hd) hentry hs
  have htouched := hchanged.touchedOnly ⟨time, hd⟩ (by rw [NoPassage, hentry]; rfl)
    (by rw [NoPassage, hafter]; rfl)
  refine ⟨htouched, ?_⟩
  rw [find_eq_ok, resolve_of_sameShape htouched.shape (find_eq_ok.mp hfile), hafter]

theorem FlatAt.remove (h : fs.FlatAt (Path.rooted names) base) (hnames : ∀ n ∈ names, IsOrdinary n)
    (hpath : path.IsEntry names) (hfile : fs.NoPassage (path.locationIn base))
    (hbelow : ∀ more, more ≠ [] → fs.get? (path.locationIn base ++ more) = none)
    (hr : fs.remove path = .ok fs') :
    TouchedOnly base [path] fs fs' ∧ ∀ found, fs'.find path ≠ .ok found := by
  have hleads := h.leads hnames hpath
  obtain ⟨hchanged, hafter⟩ := hleads.remove (path.locationIn_ne_nil base) hbelow hr
  have htouched := hchanged.touchedOnly h.isDirectory hfile (by rw [NoPassage, hafter]; rfl)
  refine ⟨htouched, fun found hfound => ?_⟩
  obtain ⟨location, entry⟩ := found
  obtain ⟨-, hentry⟩ := (hleads.of_sameShape htouched.shape).find hfound
  rw [hafter] at hentry
  cases hentry

end

end FileSystem

end QueryBuild
