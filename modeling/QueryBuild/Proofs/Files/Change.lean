import QueryBuild.Proofs.Files.Walk
import QueryBuild.Proofs.Outcome
import QueryBuild.Proofs.Text.Plain
/-!
# What writing and removing change

To write or to remove a file changes what lies at its location, and the time of the directory that
it lies in. Everything else stays, and all paths go on leading where they led.
-/

namespace QueryBuild.FileSystem

/-- At most one location differs, and the time of the directory that it lies in. -/
structure ChangedAt (fs fs' : FileSystem) (location : Location) : Prop where
  workingDirectory : fs'.workingDirectory = fs.workingDirectory
  now : fs'.now = fs.now
  elsewhere : ∀ other, other ≠ location → other ≠ location.dropLast →
    fs'.get? other = fs.get? other
  directory : ∃ time, fs'.get? location.dropLast = some (.directory time)

/-- Neither a directory nor a link lies at a location. -/
def NoPassage (fs : FileSystem) (location : Location) : Prop :=
  (fs.get? location).bind Entry.passage? = none

theorem get?_root (fs : FileSystem) : ∃ time, fs.get? [] = some (.directory time) := by
  rw [get?]
  cases hlookup : (fs.entries.lookup []).filter Entry.isDirectory with
  | none => exact ⟨0, rfl⟩
  | some entry =>
    obtain ⟨-, hdirectory⟩ := Option.filter_eq_some_iff.mp hlookup
    cases entry with
    | directory time => exact ⟨time, rfl⟩
    | file contents time executable => cases hdirectory
    | link target => cases hdirectory

theorem dropLast_ne {location : Location} (h : location ≠ []) : location.dropLast ≠ location := by
  intro heq
  have hlength := congrArg List.length heq
  have hpos := List.length_pos_of_ne_nil h
  rw [List.length_dropLast] at hlength
  omega

theorem NoPassage.ne_nil {fs : FileSystem} {location : Location} (h : fs.NoPassage location) :
    location ≠ [] := by
  intro hroot
  obtain ⟨time, hd⟩ := get?_root fs
  rw [NoPassage, hroot, hd] at h
  cases h

theorem mem_entries_of_get? {fs : FileSystem} {location : Location} (hlocation : location ≠ [])
    {entry : Entry} (h : fs.get? location = some entry) : (location, entry) ∈ fs.entries := by
  obtain ⟨name, rest, rfl⟩ := List.exists_cons_of_ne_nil hlocation
  have hlookup : fs.entries.lookup (name :: rest) = some entry := h
  obtain ⟨front, back, hentries, -⟩ := List.lookup_eq_some_iff.mp hlookup
  rw [hentries]
  simp

theorem ChangedAt.sameShape {fs fs' : FileSystem} {location : Location}
    (h : ChangedAt fs fs' location) {time : Instant}
    (hd : fs.get? location.dropLast = some (.directory time)) (hbefore : fs.NoPassage location)
    (hafter : fs'.NoPassage location) : SameShape fs fs' := by
  refine ⟨h.workingDirectory, fun other => ?_⟩
  by_cases hself : other = location
  · rw [hself, hbefore, hafter]
  by_cases hparent : other = location.dropLast
  · obtain ⟨time', hd'⟩ := h.directory
    rw [hparent, hd, hd']
    rfl
  · rw [h.elsewhere other hself hparent]

/-! ### Writing -/

theorem changedAt_put {fs : FileSystem} {location : Location} {time : Instant}
    (hlocation : location ≠ []) (hd : fs.get? location.dropLast = some (.directory time))
    (entry : Entry) : ChangedAt fs (fs.put location entry) location := by
  refine ⟨rfl, rfl, fun other hself _ => get?_put_of_ne fs hself entry, time, ?_⟩
  rw [get?_put_of_ne fs (dropLast_ne hlocation) entry, hd]

theorem changedAt_create {fs : FileSystem} {location : Location} {time : Instant}
    (hlocation : location ≠ []) (hd : fs.get? location.dropLast = some (.directory time))
    (entry : Entry) : ChangedAt fs (fs.create location entry) location := by
  rw [create]
  simp only [hd]
  split
  · exact changedAt_put hlocation hd entry
  · rename_i hparent
    have hparent' : location.dropLast ≠ [] := by simpa using hparent
    have hd' := get?_put_self fs hparent' (.directory fs.now)
    have hput := changedAt_put hlocation hd' entry
    refine ⟨hput.workingDirectory, hput.now, fun other hself hother => ?_, hput.directory⟩
    rw [hput.elsewhere other hself hother, get?_put_of_ne fs hother]

theorem get?_create_self {fs : FileSystem} {location : Location} (hlocation : location ≠ [])
    (entry : Entry) : (fs.create location entry).get? location = some entry := by
  rw [create]
  exact get?_put_self _ hlocation entry

theorem write_missing {fs : FileSystem} {path : Path} {location : Location}
    (hr : fs.resolve true path = .ok ⟨location, none⟩) (hfile : namesDirectory path = false)
    (contents : ByteArray) :
    fs.write path contents = .ok (fs.create location (.file contents fs.now false)) := by
  rw [FileSystem.write, hr]
  simp only [hfile]
  rfl

/-- To write a file puts a file with the contents at the location, with the time of the clock. -/
theorem Leads.write {fs fs' : FileSystem} {path : Path} {location : Location} {time : Instant}
    (hl : fs.Leads path location) (hlocation : location ≠ [])
    (hd : fs.get? location.dropLast = some (.directory time)) {contents : ByteArray}
    (hw : fs.write path contents = .ok fs') :
    fs.NoPassage location ∧ ChangedAt fs fs' location ∧
      ∃ executable, fs'.get? location = some (.file contents fs.now executable) := by
  rw [FileSystem.write] at hw
  split at hw
  · cases hw
  · rename_i found hfound
    obtain ⟨hsame, hnone⟩ := Target.mk.inj (hl true _ hfound)
    split at hw
    · cases hw
    · cases hw
      rw [hsame]
      refine ⟨?_, changedAt_create hlocation hd _, false, get?_create_self hlocation _⟩
      rw [NoPassage, ← hnone]
      rfl
  · rename_i found before modified executable hfound
    obtain ⟨hsame, hsome⟩ := Target.mk.inj (hl true _ hfound)
    cases hw
    rw [hsame]
    refine ⟨?_, changedAt_put hlocation hd _, executable, get?_put_self _ hlocation _⟩
    rw [NoPassage, ← hsome]
    rfl
  · cases hw

theorem Leads.setExecutable {fs fs' : FileSystem} {path : Path} {location : Location}
    {time : Instant} (hl : fs.Leads path location) (hlocation : location ≠ [])
    (hd : fs.get? location.dropLast = some (.directory time)) {contents : ByteArray}
    {modified : Instant} {before executable : Bool}
    (hfile : fs.get? location = some (.file contents modified before))
    (hs : fs.setExecutable path executable = .ok fs') :
    ChangedAt fs fs' location ∧ fs'.get? location = some (.file contents modified executable) := by
  rw [FileSystem.setExecutable] at hs
  obtain ⟨⟨found, entry⟩, hfind, rfl⟩ := ok_of_map hs
  obtain ⟨rfl, hentry⟩ := hl.find hfind
  cases hfile.symm.trans hentry
  exact ⟨changedAt_put hlocation hd _, get?_put_self _ hlocation _⟩

/-! ### Removing -/

theorem lookup_filter (keep : Location → Bool) {other : Location}
    (entries : List (Location × Entry)) :
    (entries.filter fun known => keep known.1).lookup other =
      if keep other then entries.lookup other else none := by
  induction entries with
  | nil => simp
  | cons known entries ih =>
    obtain ⟨location, entry⟩ := known
    rw [List.filter_cons]
    by_cases hsame : other = location
    · subst hsame
      by_cases hkeep : keep other = true
      · simp [hkeep]
      · simpa [hkeep] using ih
    · have hne : (other == location) = false := by simpa using hsame
      by_cases hkeep : keep location = true
      · simp [hkeep, List.lookup_cons, hne, ih]
      · simp [hkeep, List.lookup_cons, hne, ih]

theorem get?_drop (fs : FileSystem) {location : Location} (hlocation : location ≠ [])
    (other : Location) :
    (fs.drop location).get? other =
      if location.isPrefixOf other then none else fs.get? other := by
  have hlookup : (fs.drop location).entries.lookup other =
      if location.isPrefixOf other then none else fs.entries.lookup other := by
    rw [drop, lookup_filter fun known => !location.isPrefixOf known]
    cases location.isPrefixOf other <;> rfl
  cases other with
  | nil =>
    obtain ⟨name, rest, rfl⟩ := List.exists_cons_of_ne_nil hlocation
    simp only [get?, hlookup]
    rfl
  | cons name rest => simpa only [get?] using hlookup

theorem not_isPrefixOf_dropLast {location : Location} (hlocation : location ≠ []) :
    location.isPrefixOf location.dropLast = false := by
  rw [Bool.eq_false_iff]
  intro hprefix
  have hlength := (List.isPrefixOf_iff_prefix.mp hprefix).length_le
  have hpos := List.length_pos_of_ne_nil hlocation
  rw [List.length_dropLast] at hlength
  omega

theorem remove_found {fs : FileSystem} {path : Path} {location : Location} {entry : Entry}
    (hr : fs.resolve false path = .ok ⟨location, some entry⟩) :
    fs.remove path = .ok ((fs.put location.dropLast (.directory fs.now)).drop location) := by
  rw [FileSystem.remove, hr]

theorem Leads.remove {fs fs' : FileSystem} {path : Path} {location : Location}
    (hl : fs.Leads path location) (hlocation : location ≠ [])
    (hbelow : ∀ more, more ≠ [] → fs.get? (location ++ more) = none)
    (hr : fs.remove path = .ok fs') :
    ChangedAt fs fs' location ∧ fs'.get? location = none := by
  rw [FileSystem.remove] at hr
  split at hr
  · cases hr
  · cases hr
  · rename_i found entry hfound
    obtain ⟨rfl, -⟩ := Target.mk.inj (hl false _ hfound)
    cases hr
    refine ⟨⟨rfl, rfl, fun other hself hparent => ?_, ?_⟩, ?_⟩
    · rw [get?_drop _ hlocation]
      split
      · rename_i hprefix
        obtain ⟨more, rfl⟩ := List.isPrefixOf_iff_prefix.mp hprefix
        rw [hbelow more (by simpa using hself)]
      · exact get?_put_of_ne fs hparent _
    · rw [get?_drop _ hlocation, not_isPrefixOf_dropLast hlocation, if_neg (by decide)]
      by_cases hroot : found.dropLast = []
      · rw [hroot]
        exact get?_root _
      · exact ⟨fs.now, get?_put_self fs hroot _⟩
    · rw [get?_drop _ hlocation, if_pos]
      exact List.isPrefixOf_iff_prefix.mpr (List.prefix_refl _)

/-! ### Reading -/

theorem read_eq_ok {fs : FileSystem} {path : Path} {contents : ByteArray} :
    fs.read path = .ok contents ↔ ∃ location modified executable,
      fs.find path = .ok (location, .file contents modified executable) := by
  rw [read]
  split
  · rename_i e hfind
    simp [hfind]
  · rename_i location held modified executable hfind
    simp [hfind, eq_comm]
  · rename_i found hnot hfind
    obtain ⟨location, entry⟩ := found
    apply iff_of_false (by simp)
    intro hcase
    rcases hcase with ⟨other, modified, executable, hfile⟩
    cases hfind.symm.trans hfile
    exact hnot _ _ _ _ rfl

theorem readText_eq_ok {fs : FileSystem} {path : Path} {text : String} :
    fs.readText path = .ok text ↔ fs.read path = .ok text.toUTF8 := by
  rw [readText]
  cases hread : fs.read path with
  | error e => simp
  | ok contents =>
    rw [Except.ok.injEq, ← Text.fromUTF8?_eq_some]
    cases htext : String.fromUTF8? contents <;> simp [htext]

theorem readText_of_find {fs : FileSystem} {path : Path} {location : Location} {text : String}
    {modified : Instant} {executable : Bool}
    (h : fs.find path = .ok (location, .file text.toUTF8 modified executable)) :
    fs.readText path = .ok text :=
  readText_eq_ok.mpr (read_eq_ok.mpr ⟨location, modified, executable, h⟩)

end QueryBuild.FileSystem
