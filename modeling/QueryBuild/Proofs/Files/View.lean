import QueryBuild.Proofs.Files.Directory
import QueryBuild.Staleness
/-!
# Views of single entries

Two states of the files look the same at a path if the path leads to the same in both, errors
included. Then nothing that is asked about that path tells the states apart. In a directory without
links, changes to some entries leave the view of every other entry as it is.
-/

namespace QueryBuild.FileSystem

/-- Both files look the same at a path. -/
def SameView (fs fs' : FileSystem) (path : Path) : Prop :=
  fs'.resolve true path = fs.resolve true path

/-- At most what a path leads to changes, and the time of the directory that it lies in. -/
structure WritesOnly (path : Path) (fs fs' : FileSystem) : Prop where
  shape : SameShape fs fs'
  kept : ∀ other, (∀ target, fs.resolve true path = .ok target →
    other ≠ target.location ∧ other ≠ target.location.dropLast) → fs'.get? other = fs.get? other

/-- Only the entries that some paths name in a directory change. -/
structure ChangedWithin (directory : Location) (paths : List Path) (fs fs' : FileSystem) :
    Prop where
  shape : SameShape fs fs'
  kept : ∀ other, other ≠ directory → (∀ path ∈ paths, other ≠ path.locationIn directory) →
    fs'.get? other = fs.get? other

section

variable {names : List String} {base : Location} {paths : List Path} {path : Path}
  {fs fs' fs'' : FileSystem}

theorem ChangedWithin.refl (base : Location) (paths : List Path) (fs : FileSystem) :
    ChangedWithin base paths fs fs :=
  ⟨SameShape.refl fs, fun _ _ _ => rfl⟩

theorem ChangedWithin.trans (h : ChangedWithin base paths fs fs')
    (h' : ChangedWithin base paths fs' fs'') : ChangedWithin base paths fs fs'' :=
  ⟨h.shape.trans h'.shape, fun other hne hpaths =>
    (h'.kept other hne hpaths).trans (h.kept other hne hpaths)⟩

theorem ChangedWithin.mono {more : List Path} (h : ChangedWithin base paths fs fs')
    (hsub : paths ⊆ more) : ChangedWithin base more fs fs' :=
  ⟨h.shape, fun other hne hmore => h.kept other hne fun path hp => hmore path (hsub hp)⟩

theorem TouchedOnly.changedWithin (h : TouchedOnly base paths fs fs') :
    ChangedWithin base paths fs fs' :=
  ⟨h.shape, h.kept⟩

theorem WritesOnly.changedWithin (h : WritesOnly path fs fs')
    (hflat : fs.FlatAt (Path.rooted names) base) (hnames : ∀ n ∈ names, IsOrdinary n)
    (hpath : path.IsEntry names) : ChangedWithin base [path] fs fs' := by
  refine ⟨h.shape, fun other hbase hpaths => h.kept other fun target htarget => ?_⟩
  rw [hflat.leads hnames hpath true target htarget, Path.dropLast_locationIn]
  exact ⟨hpaths path (by simp), hbase⟩

/-! ### What is the same in the same view -/

theorem SameView.refl (fs : FileSystem) (path : Path) : SameView fs fs path :=
  rfl

theorem SameView.trans (h : SameView fs fs' path) (h' : SameView fs' fs'' path) :
    SameView fs fs'' path :=
  Eq.trans h' h

theorem SameView.find (h : SameView fs fs' path) : fs'.find path = fs.find path := by
  rw [FileSystem.find, h]
  rfl

theorem SameView.modified (h : SameView fs fs' path) : fs'.modified path = fs.modified path := by
  rw [FileSystem.modified, h.find]
  rfl

theorem SameView.read (h : SameView fs fs' path) : fs'.read path = fs.read path := by
  rw [FileSystem.read, h.find]
  rfl

theorem SameView.readText (h : SameView fs fs' path) : fs'.readText path = fs.readText path := by
  rw [FileSystem.readText, h.read]
  rfl

theorem SameView.staleness {source artifact : Path} (hsource : SameView fs fs' source)
    (hartifact : SameView fs fs' artifact) :
    Staleness.check fs' source artifact = Staleness.check fs source artifact := by
  rw [Staleness.check, hartifact.modified, hsource.modified]
  rfl

theorem SameView.write_error (h : SameView fs fs' path) (contents : ByteArray) (e : IoError) :
    fs'.write path contents = .error e ↔ fs.write path contents = .error e := by
  rw [write, write, h]
  cases fs.resolve true path with
  | error cause => exact Iff.rfl
  | ok target =>
    obtain ⟨location, entry⟩ := target
    rcases entry with _ | (_ | _ | _)
    · dsimp only
      split
      · exact Iff.rfl
      · simp
    · simp
    · exact Iff.rfl
    · exact Iff.rfl

/-! ### Entries of a directory -/

/-- The path of an entry leads to the same wherever the entry is the same. -/
theorem FlatAt.sameView (h : fs.FlatAt (Path.rooted names) base)
    (h' : fs'.FlatAt (Path.rooted names) base) (hnames : ∀ n ∈ names, IsOrdinary n)
    (hpath : path.IsEntry names)
    (hget : fs'.get? (path.locationIn base) = fs.get? (path.locationIn base)) :
    SameView fs fs' path := by
  obtain ⟨name, hname, hrooted, hlocation⟩ := hpath.ordinary hnames base
  obtain ⟨time, hfound⟩ := h.found
  obtain ⟨time', hfound'⟩ := h'.found
  rw [hlocation] at hget
  rw [SameView, hrooted, resolve_rooted_concat hnames hfound hname (h.noLink _),
    resolve_rooted_concat hnames hfound' hname (h'.noLink _), hget]

theorem ChangedWithin.sameView (h : ChangedWithin base paths fs fs')
    (hflat : fs.FlatAt (Path.rooted names) base) (hnames : ∀ n ∈ names, IsOrdinary n)
    (hpaths : ∀ other ∈ paths, other.IsEntry names) (hpath : path.IsEntry names)
    (hnot : path ∉ paths) : SameView fs fs' path := by
  refine hflat.sameView (hflat.of_sameShape h.shape) hnames hpath ?_
  apply h.kept _ (path.locationIn_ne base)
  intro other hother hsame
  rw [Path.locationIn_inj hnames hpath (hpaths other hother)] at hsame
  exact hnot (hsame ▸ hother)

end

/-! ### Writing at any path -/

theorem get?_of_resolve {fs : FileSystem} {follow : Bool} {path : Path} {location : Location}
    {entry : Option Entry} (hr : fs.resolve follow path = .ok ⟨location, entry⟩) :
    fs.get? location = entry := by
  have hhere := resolve_of_sameShape (SameShape.refl fs) hr
  exact (Target.mk.inj (Except.ok.inj (hr.symm.trans hhere))).2.symm

theorem sameShape_put {fs : FileSystem} {location : Location} (hbefore : fs.NoPassage location)
    (contents : ByteArray) (time : Instant) (executable : Bool) :
    SameShape fs (fs.put location (.file contents time executable)) := by
  refine ⟨rfl, fun other => ?_⟩
  by_cases hsame : other = location
  · rw [hsame, hbefore, get?_put_self fs hbefore.ne_nil]
    rfl
  · rw [get?_put_of_ne fs hsame]

theorem sameShape_touch {fs : FileSystem} {location : Location} (hlocation : location ≠ [])
    {time : Instant} (hd : fs.get? location = some (.directory time)) (later : Instant) :
    SameShape fs (fs.put location (.directory later)) := by
  refine ⟨rfl, fun other => ?_⟩
  by_cases hsame : other = location
  · rw [hsame, hd, get?_put_self fs hlocation]
    rfl
  · rw [get?_put_of_ne fs hsame]

theorem confined_of_create {fs : FileSystem} {location : Location}
    (hnone : fs.get? location = none) (contents : ByteArray) (time : Instant) (executable : Bool) :
    let fs' := fs.create location (.file contents time executable)
    SameShape fs fs' ∧
      ∀ other, other ≠ location → other ≠ location.dropLast → fs'.get? other = fs.get? other := by
  have hbefore : fs.NoPassage location := by
    rw [NoPassage, hnone]
    rfl
  have hput : SameShape fs (fs.put location (.file contents time executable)) ∧
      ∀ other, other ≠ location → other ≠ location.dropLast →
        (fs.put location (.file contents time executable)).get? other = fs.get? other :=
    ⟨sameShape_put hbefore _ _ _, fun other hself _ => get?_put_of_ne fs hself _⟩
  dsimp only
  rw [create]
  split
  · rename_i modified hd
    split
    · exact hput
    · rename_i hroot
      have hroot' : location.dropLast ≠ [] := by simpa using hroot
      have hnone' : (fs.put location.dropLast (.directory fs.now)).get? location = none := by
        rw [get?_put_of_ne fs (dropLast_ne hbefore.ne_nil).symm, hnone]
      have htouch := sameShape_touch hroot' hd fs.now
      refine ⟨htouch.trans (sameShape_put (by rw [NoPassage, hnone']; rfl) _ _ _), ?_⟩
      intro other hself hother
      rw [get?_put_of_ne _ hself, get?_put_of_ne _ hother]
  · exact hput

theorem writesOnly_put {fs : FileSystem} {path : Path} {location : Location} {entry : Option Entry}
    (hr : fs.resolve true path = .ok ⟨location, entry⟩) (hbefore : fs.NoPassage location)
    (contents : ByteArray) (time : Instant) (executable : Bool) :
    WritesOnly path fs (fs.put location (.file contents time executable)) :=
  ⟨sameShape_put hbefore _ _ _, fun _ hother => get?_put_of_ne fs (hother _ hr).1 _⟩

theorem WritesOnly.trans {fs fs' fs'' : FileSystem} {path : Path} (h : WritesOnly path fs fs')
    (h' : WritesOnly path fs' fs'') : WritesOnly path fs fs'' := by
  refine ⟨h.shape.trans h'.shape, fun other hother => ?_⟩
  rw [h'.kept other fun target htarget => ?_, h.kept other hother]
  have hbefore := hother _ (resolve_of_sameShape h.shape.symm htarget)
  exact hbefore

theorem WritesOnly.find {fs fs' : FileSystem} {path : Path} (h : WritesOnly path fs fs')
    {location : Location} {entry : Option Entry} {held : Entry}
    (hr : fs.resolve true path = .ok ⟨location, entry⟩) (hget : fs'.get? location = some held) :
    fs'.find path = .ok (location, held) := by
  rw [find_eq_ok, resolve_of_sameShape h.shape hr, hget]

theorem writesOnly_setClock (path : Path) (fs : FileSystem) (time : Instant) :
    WritesOnly path fs (fs.setClock time) :=
  ⟨⟨rfl, fun _ => rfl⟩, fun _ _ => rfl⟩

theorem write_cases {fs fs' : FileSystem} {path : Path} {contents : ByteArray}
    (hw : fs.write path contents = .ok fs') : ∃ location, fs.NoPassage location ∧
      ((fs.resolve true path = .ok ⟨location, none⟩ ∧
          fs' = fs.create location (.file contents fs.now false)) ∨
        ∃ before modified executable,
          fs.resolve true path = .ok ⟨location, some (.file before modified executable)⟩ ∧
          fs' = fs.put location (.file contents fs.now executable)) := by
  have hbefore : ∀ {location : Location} {entry : Option Entry},
      fs.resolve true path = .ok ⟨location, entry⟩ → entry.bind Entry.passage? = none →
      fs.NoPassage location := by
    intro location entry hresolve hentry
    rw [NoPassage, get?_of_resolve hresolve, hentry]
  rw [write] at hw
  split at hw
  · cases hw
  · rename_i location hresolve
    split at hw
    · cases hw
    · cases hw
      exact ⟨location, hbefore hresolve rfl, Or.inl ⟨hresolve, rfl⟩⟩
  · rename_i location before modified executable hresolve
    cases hw
    exact ⟨location, hbefore hresolve rfl, Or.inr ⟨before, modified, executable, hresolve, rfl⟩⟩
  · cases hw

/-- What is written is found where its path leads, with the time of the clock, and nothing else
changes but the time of the directory. -/
theorem write_spec {fs fs' : FileSystem} {path : Path} {contents : ByteArray}
    (hw : fs.write path contents = .ok fs') : WritesOnly path fs fs' ∧
      ∃ location executable, fs'.find path = .ok (location, .file contents fs.now executable) := by
  obtain ⟨location, hbefore, hcase⟩ := write_cases hw
  rcases hcase with ⟨hresolve, rfl⟩ | ⟨before, modified, executable, hresolve, rfl⟩
  · obtain ⟨hshape, hkept⟩ := confined_of_create (get?_of_resolve hresolve) contents fs.now false
    have honly : WritesOnly path fs _ := ⟨hshape, fun other hother =>
      hkept other (hother _ hresolve).1 (hother _ hresolve).2⟩
    exact ⟨honly, location, false, honly.find hresolve (get?_create_self hbefore.ne_nil _)⟩
  · have honly := writesOnly_put hresolve hbefore contents fs.now executable
    exact ⟨honly, location, executable, honly.find hresolve (get?_put_self _ hbefore.ne_nil _)⟩

/-- A regular file lies at a location. -/
def HoldsFile (fs : FileSystem) (location : Location) : Prop :=
  ∃ contents modified executable, fs.get? location = some (.file contents modified executable)

theorem isFile_eq_true {fs : FileSystem} {path : Path} : fs.isFile path = true ↔
    ∃ location contents modified executable,
      fs.find path = .ok (location, .file contents modified executable) := by
  rw [isFile]
  constructor
  · intro hfile
    split at hfile
    · rename_i location entry hfind
      cases entry with
      | file contents modified executable => exact ⟨location, contents, modified, executable, hfind⟩
      | directory modified => cases hfile
      | link target => cases hfile
    · cases hfile
  · intro hfound
    obtain ⟨location, contents, modified, executable, hfind⟩ := hfound
    rw [hfind]
    rfl

theorem HoldsFile.put {fs : FileSystem} {location other : Location} (h : fs.HoldsFile other)
    (hlocation : location ≠ []) (contents : ByteArray) (time : Instant) (executable : Bool) :
    (fs.put location (.file contents time executable)).HoldsFile other := by
  by_cases hself : other = location
  · rw [hself]
    exact ⟨contents, time, executable, get?_put_self fs hlocation _⟩
  · obtain ⟨held, modified, before, hget⟩ := h
    exact ⟨held, modified, before, (get?_put_of_ne fs hself _).trans hget⟩

theorem HoldsFile.create {fs : FileSystem} {location other : Location} (h : fs.HoldsFile other)
    (hlocation : location ≠ []) (contents : ByteArray) (time : Instant) (executable : Bool) :
    (fs.create location (.file contents time executable)).HoldsFile other := by
  rw [FileSystem.create]
  split
  · rename_i modified hd
    split
    · exact h.put hlocation contents time executable
    · -- the directory that is modified is no file
      obtain ⟨held, modified', before, hget⟩ := h
      have hparent : other ≠ location.dropLast := by
        intro hsame
        rw [hsame, hd] at hget
        cases hget
      have hkept : (fs.put location.dropLast (.directory fs.now)).HoldsFile other :=
        ⟨held, modified', before, (get?_put_of_ne fs hparent _).trans hget⟩
      exact hkept.put hlocation contents time executable
  · exact h.put hlocation contents time executable

theorem isFile_of_write {fs fs' : FileSystem} {path other : Path} {contents : ByteArray}
    (hw : fs.write path contents = .ok fs') (h : fs.isFile other = true) :
    fs'.isFile other = true := by
  have hshape := (write_spec hw).1.shape
  obtain ⟨location, held, modified, executable, hfind⟩ := isFile_eq_true.mp h
  have hfile : fs.HoldsFile location := ⟨held, modified, executable, get?_of_find hfind⟩
  have hkept : fs'.HoldsFile location := by
    obtain ⟨written, hbefore, hcase⟩ := write_cases hw
    rcases hcase with ⟨-, rfl⟩ | ⟨-, -, mode, -, rfl⟩
    · exact hfile.create hbefore.ne_nil contents fs.now false
    · exact hfile.put hbefore.ne_nil contents fs.now mode
  obtain ⟨held', modified', executable', hget⟩ := hkept
  refine isFile_eq_true.mpr ⟨location, held', modified', executable', ?_⟩
  rw [find_eq_ok, resolve_of_sameShape hshape (find_eq_ok.mp hfind), hget]

theorem setExecutable_spec {fs fs' : FileSystem} {path : Path} {executable : Bool}
    (hs : fs.setExecutable path executable = .ok fs') : WritesOnly path fs fs' ∧
      ∀ location contents modified before,
        fs.find path = .ok (location, .file contents modified before) →
        fs'.find path = .ok (location, .file contents modified executable) := by
  rw [setExecutable] at hs
  obtain ⟨⟨location, entry⟩, hfind, rfl⟩ := ok_of_map hs
  have hresolve := find_eq_ok.mp hfind
  have hnothing : WritesOnly path fs fs := ⟨SameShape.refl fs, fun _ _ => rfl⟩
  cases entry with
  | directory time =>
    refine ⟨hnothing, fun _ _ _ _ hfile => ?_⟩
    cases hfind.symm.trans hfile
  | link target =>
    refine ⟨hnothing, fun _ _ _ _ hfile => ?_⟩
    cases hfind.symm.trans hfile
  | file contents modified before =>
    have hbefore : fs.NoPassage location := by
      rw [NoPassage, get?_of_find hfind]
      rfl
    have honly := writesOnly_put hresolve hbefore contents modified executable
    refine ⟨honly, fun _ _ _ _ hfile => ?_⟩
    cases hfind.symm.trans hfile
    exact honly.find hresolve (get?_put_self _ hbefore.ne_nil _)

end QueryBuild.FileSystem
