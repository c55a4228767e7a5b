import Mathlib.Data.List.TakeDrop
import QueryBuild.Proofs.Discovery
import QueryBuild.Proofs.Files.Walk
import QueryBuild.Proofs.Text.Bytes
import QueryBuild.Proofs.Text.Plain
/-!
# Names of entries

The names in a well-kept file system have no slash in them and are neither empty nor `.` or `..`.
So the text of such a name can stand in a path.
-/

namespace QueryBuild

namespace FileName

open Text

/-! ### Names and texts -/

theorem ofText_eq_flatMap (s : String) : ofText s = s.toList.flatMap String.utf8EncodeChar :=
  toList_toUTF8 s

theorem ofText_append (s t : String) : ofText (s ++ t) = ofText s ++ ofText t := by
  simp [ofText_eq_flatMap]

theorem text?_eq_some {name : FileName} {s : String} : name.text? = some s ↔ name = ofText s := by
  rw [text?, fromUTF8?_eq_some, bytes, ofText, toList_eq_data]
  constructor
  · intro h
    rw [← h]
  · intro heq
    subst heq
    simp

theorem ofText_inj {s t : String} : ofText s = ofText t ↔ s = t := by
  constructor
  · intro h
    have hs := text?_eq_some.mpr h
    rw [text?_eq_some.mpr rfl] at hs
    exact Option.some.inj hs
  · intro heq
    subst heq
    rfl

theorem shown_ofText (s : String) : (ofText s).shown = s := by
  rw [shown, lossy, ofText_eq_flatMap, lossyChars_flatMap, String.ofList_toList]

theorem byteOf_mem_ofText {c : Char} (hc : IsPlain c) {s : String} :
    byteOf c ∈ ofText s ↔ c ∈ s.toList := by
  have hsmall : c.toNat < 256 := by
    have := hc.2
    omega
  have hvalue : (byteOf c).toNat = c.toNat := UInt8.toNat_ofNat_of_lt' hsmall
  have hbyte : (byteOf c).toNat < 0x80 := by
    rw [hvalue]
    exact hc.2
  rw [ofText_eq_flatMap, List.mem_flatMap]
  constructor
  · intro hcase
    rcases hcase with ⟨d, hd, hmem⟩
    obtain ⟨hplain, heq⟩ := (mem_utf8EncodeChar hbyte).mp hmem
    have hsame : c.toNat = d.toNat := by
      rw [← hvalue, heq]
      exact UInt8.toNat_ofNat_of_lt' (hplain.trans (by decide))
    rwa [Char.toNat_inj.mp hsame]
  · intro hmem
    exact ⟨c, hmem, (mem_utf8EncodeChar hbyte).mpr ⟨hc.2, rfl⟩⟩

/-! ### Names that can stand in a path -/

/-- A name that an entry can have. -/
structure IsProper (name : FileName) : Prop where
  nonempty : name ≠ []
  noSlash : byteOf '/' ∉ name
  notDot : name ≠ ofText "."
  notDots : name ≠ ofText ".."

private theorem isPlain_slash : IsPlain '/' := by
  decide

private theorem isPlain_dot : IsPlain '.' := by
  decide

theorem isProper_ofText {s : String} (h : IsOrdinary s) : IsProper (ofText s) where
  nonempty heq := by
    have hempty : ofText "" = [] := by cbv
    exact h.nonempty (ofText_inj.mp (heq.trans hempty.symm))
  noSlash hmem := h.noSlash ((byteOf_mem_ofText isPlain_slash).mp hmem)
  notDot heq := h.notDot (ofText_inj.mp heq)
  notDots heq := h.notDots (ofText_inj.mp heq)

private theorem ne_of_shown {name : FileName} {s : String} (hplain : ∀ c ∈ s.toList, IsPlain c)
    (hbytes : s.toList.map byteOf = ofText s) (hne : name ≠ ofText s) : name.shown ≠ s := by
  intro heq
  have hchars : lossyChars name = s.toList := by
    rw [← heq, shown, lossy, String.toList_ofList]
  exact hne ((bytes_of_lossyChars hplain hchars).trans hbytes)

theorem IsProper.isOrdinary_shown {name : FileName} (h : IsProper name) :
    IsOrdinary name.shown where
  nonempty := ne_of_shown (by simp) (by cbv) (by
    have hempty : ofText "" = [] := by cbv
    rw [hempty]
    exact h.nonempty)
  noSlash hmem := by
    rw [shown, lossy, String.toList_ofList] at hmem
    exact h.noSlash (byteOf_mem isPlain_slash hmem)
  notDot := ne_of_shown (by simp [isPlain_dot]) (by cbv) h.notDot
  notDots := ne_of_shown (by simp [isPlain_dot]) (by cbv) h.notDots

/-! ### Names of sources -/

theorem splitName_some {α : Type} [BEq α] [LawfulBEq α] {dot : α} {name stem extension : List α}
    (h : Path.splitName dot name = (stem, some extension)) :
    name = stem ++ dot :: extension ∧ stem ≠ [] := by
  rw [Path.splitName, List.span_eq_takeWhile_dropWhile] at h
  split at h
  · cases h
  split at h
  · cases h
  · cases h
  · rename_i after first before hnot hcut
    obtain ⟨hafter, hrest⟩ := Prod.mk.inj hcut
    obtain ⟨rfl, hextension⟩ := Prod.mk.inj h
    cases hextension
    have hdot : first = dot := by
      have hhead := List.head?_dropWhile_not (· != dot) name.reverse
      rw [hrest] at hhead
      simpa using hhead
    have hname : name.reverse = after ++ first :: before := by
      rw [← hafter, ← hrest, List.takeWhile_append_dropWhile]
    refine ⟨?_, ?_⟩
    · have hback := congrArg List.reverse hname
      rw [List.reverse_reverse] at hback
      rw [hback, hdot]
      simp
    · intro hempty
      exact hnot (by simpa using hempty)

theorem split_of_isSource {name : FileName} (h : name.isSource = true) :
    ∃ stem extension, name.split = (stem, some (ofText extension)) ∧
      extension.map Char.toLower = BuildUnit.sourceExtension := by
  rw [isSource] at h
  split at h
  · rename_i extension hextension
    obtain ⟨bytes, hbytes, htext⟩ := Option.bind_eq_some_iff.mp hextension
    rw [text?_eq_some.mp htext] at hbytes
    exact ⟨name.split.1, extension, Prod.ext rfl hbytes, beq_iff_eq.mp h⟩
  · cases h

theorem eq_ofText_of_isSource {name : FileName} (hsource : name.isSource = true) {stem : String}
    (hstem : name.split.1.text? = some stem) :
    ∃ extension, name = ofText (stem ++ "." ++ extension) ∧
      extension.map Char.toLower = BuildUnit.sourceExtension ∧ stem ≠ "" := by
  obtain ⟨bytes, extension, hsplit, hlower⟩ := split_of_isSource hsource
  obtain ⟨hwhole, hnonempty⟩ := splitName_some hsplit
  have hbytes : bytes = ofText stem := by
    rw [hsplit] at hstem
    exact text?_eq_some.mp hstem
  have hdot : ofText "." = ['.'.toUInt8] := by cbv
  refine ⟨extension, ?_, hlower, ?_⟩
  · rw [ofText_append, ofText_append, hdot, hwhole, hbytes, List.append_assoc,
      List.singleton_append]
  · intro heq
    subst heq
    have hempty : ofText "" = [] := by cbv
    exact hnonempty (hbytes.trans hempty)

end FileName

namespace FileSystem

/-- What an operating system sees to: names are proper, and every entry lies in a directory. -/
structure WellKept (fs : FileSystem) : Prop where
  workingDirectory : ∀ name ∈ fs.workingDirectory, FileName.IsProper name
  named : ∀ known ∈ fs.entries, ∀ name ∈ known.1, FileName.IsProper name
  housed : ∀ location name, fs.get? (location ++ [name]) ≠ none →
    ∃ time, fs.get? location = some (.directory time)

theorem mem_steps {path name : String} (h : name ∈ steps path) :
    name ≠ "" ∧ '/' ∉ name.toList := by
  have hpiece : ∀ piece ∈ (Text.splitOn (· == '/') path.toList).filter (· != []),
      String.ofList piece ≠ "" ∧ '/' ∉ (String.ofList piece).toList := by
    intro piece hmem
    obtain ⟨hmem, hnonempty⟩ := List.mem_filter.mp hmem
    refine ⟨?_, fun hslash => ?_⟩
    · intro hempty
      have hnil := congrArg String.toList hempty
      simp at hnil
      simp [hnil] at hnonempty
    · rw [String.toList_ofList] at hslash
      exact absurd (Text.not_of_mem_splitOn hmem hslash) (by decide)
  have hsteps : name ∈ ((Text.splitOn (· == '/') path.toList).filter (· != [])).map String.ofList ∨
      name = "." := by
    rw [steps] at h
    split at h
    · simpa using h
    · exact Or.inl h
  rcases hsteps with hname | rfl
  · obtain ⟨piece, hmem, rfl⟩ := List.mem_map.mp hname
    exact hpiece piece hmem
  · decide

private theorem proper_concat {here : Location} (hhere : ∀ name ∈ here, FileName.IsProper name)
    {name : String} (hname : name ≠ "" ∧ '/' ∉ name.toList) (hdot : ¬ (name == ".") = true)
    (hdots : ¬ (name == "..") = true) :
    ∀ n ∈ here ++ [FileName.ofText name], FileName.IsProper n := by
  intro n hn
  rcases List.mem_append.mp hn with hn | hn
  · exact hhere n hn
  · rw [List.mem_singleton.mp hn]
    exact FileName.isProper_ofText ⟨hname.1, hname.2, by simpa using hdot, by simpa using hdots⟩

theorem walk_proper {fs : FileSystem} {follow : Bool} {links : Nat} {here location : Location}
    {names : List String} {entry : Option Entry}
    (hhere : ∀ name ∈ here, FileName.IsProper name)
    (hnames : ∀ name ∈ names, name ≠ "" ∧ '/' ∉ name.toList)
    (hw : fs.walk follow links here names = .ok ⟨location, entry⟩) :
    ∀ name ∈ location, FileName.IsProper name := by
  fun_induction walk fs follow links here names with
  | case1 links here =>
    obtain ⟨rfl, -⟩ := Target.mk.inj (Except.ok.inj hw)
    exact hhere
  | case2 links here name rest modified hd hdot ih =>
    exact ih hhere (fun n hn => hnames n (List.mem_cons_of_mem _ hn)) hw
  | case3 links here name rest modified hd hdot hdots ih =>
    exact ih (fun n hn => hhere n (List.dropLast_subset _ hn))
      (fun n hn => hnames n (List.mem_cons_of_mem _ hn)) hw
  | case5 links here name rest modified hd hdot hdots hlength next hnext hrest =>
    obtain ⟨rfl, -⟩ := Target.mk.inj (Except.ok.inj hw)
    exact proper_concat hhere (hnames name List.mem_cons_self) hdot hdots
  | case7 links here name rest modified hd hdot hdots hlength next target hnext hstop =>
    obtain ⟨rfl, -⟩ := Target.mk.inj (Except.ok.inj hw)
    exact proper_concat hhere (hnames name List.mem_cons_self) hdot hdots
  | case10 here name rest modified hd hdot hdots hlength next target hnext hgo links htarget ih =>
    refine ih ?_ ?_ hw
    · intro n hn
      rw [startOf] at hn
      split at hn
      · simp at hn
      · exact hhere n hn
    · intro n hn
      rcases List.mem_append.mp hn with hn | hn
      · exact mem_steps hn
      · exact hnames n (List.mem_cons_of_mem _ hn)
  | case11 links here name rest modified hd hdot hdots hlength next entry' hnot hnext ih =>
    exact ih (proper_concat hhere (hnames name List.mem_cons_self) hdot hdots)
      (fun n hn => hnames n (List.mem_cons_of_mem _ hn)) hw
  | _ => cases hw

theorem WellKept.canonicalize {fs : FileSystem} (h : fs.WellKept) {path : Path}
    {location : Location} (hc : fs.canonicalize path = .ok location) :
    ∀ name ∈ location, FileName.IsProper name := by
  rw [FileSystem.canonicalize] at hc
  obtain ⟨⟨found, entry⟩, hfind, rfl⟩ := ok_of_map hc
  have hresolve := find_eq_ok.mp hfind
  rw [resolve_eq_walk_of_ok hresolve fs true] at hresolve
  refine walk_proper ?_ (fun name hname => mem_steps hname) hresolve
  intro name hname
  rw [startOf] at hname
  split at hname
  · simp at hname
  · exact h.workingDirectory name hname

/-- The name of an entry, if it lies in a directory. -/
def nameIn? (location : Location) (known : Location × Entry) : Option (FileName × Entry) :=
  match known.1.getLast? with
  | some name => if known.1.dropLast == location then some (name, known.2) else none
  | none => none

theorem nameIn?_eq_some {location : Location} {known : Location × Entry} {name : FileName}
    {entry : Entry} :
    nameIn? location known = some (name, entry) ↔ known = (location ++ [name], entry) := by
  obtain ⟨place, held⟩ := known
  rcases List.eq_nil_or_concat place with rfl | ⟨parent, last, rfl⟩
  · simp [nameIn?]
  · simp only [nameIn?, List.concat_eq_append, List.getLast?_append, List.dropLast_concat]
    simp [and_assoc, and_comm]

theorem mem_listDirectory {fs : FileSystem} {location : Location} {name : FileName}
    {entry : Entry} :
    (name, entry) ∈ fs.listDirectory location ↔ (location ++ [name], entry) ∈ fs.entries := by
  have hlist : fs.listDirectory location =
      (fs.entries.filterMap (nameIn? location)).mergeSort fun a b => a.1.before b.1 := rfl
  rw [hlist, List.mem_mergeSort, List.mem_filterMap]
  simp only [nameIn?_eq_some, exists_eq_right]

theorem mem_fileNames {fs : FileSystem} {location : Location} {name : FileName} :
    name ∈ UnitGraph.fileNames fs location ↔
      ∃ entry, (location ++ [name], entry) ∈ fs.entries ∧ entry.isFile = true := by
  rw [UnitGraph.fileNames, List.mem_filterMap]
  constructor
  · rintro ⟨⟨found, entry⟩, hmem, hfile⟩
    simp only [Option.ite_none_right_eq_some, Option.some.injEq] at hfile
    obtain ⟨hfile, rfl⟩ := hfile
    exact ⟨entry, mem_listDirectory.mp hmem, hfile⟩
  · rintro ⟨entry, hmem, hfile⟩
    exact ⟨(name, entry), mem_listDirectory.mpr hmem, by simp [hfile]⟩

theorem WellKept.fileNames {fs : FileSystem} (h : fs.WellKept) {location : Location}
    {name : FileName} (hname : name ∈ UnitGraph.fileNames fs location) :
    FileName.IsProper name := by
  obtain ⟨entry, hentry, -⟩ := mem_fileNames.mp hname
  exact h.named _ hentry _ (by simp)

theorem WellKept.below {fs : FileSystem} (h : fs.WellKept) {location : Location}
    (hnone : fs.get? location = none) (more : Location) : fs.get? (location ++ more) = none := by
  induction more using List.reverseRecOn with
  | nil => rwa [List.append_nil]
  | append_singleton more name ih =>
    by_contra hsome
    rw [← List.append_assoc] at hsome
    obtain ⟨time, hd⟩ := h.housed _ _ hsome
    rw [ih] at hd
    cases hd

end FileSystem

end QueryBuild
