import FormWiring.Files
import Mathlib.Data.List.DropRight

/-!
# Making directories

What is made on the way to a file adds directories where nothing was and touches no file; so whatever a path found it
still finds. A directory that holds what a path names is found by the path's parent. Hence a file is never found behind
a directory that could not be made, and a file that is written is found where it was written. A text that a file holds
is read back from its bytes.

Main statements: `grows_makeDirectories`, `isDirectory_parent?`, `isDirectory_of_makeDirectories_eq_error`,
`find_of_write`, `exists_write_of_readBytes`, `textOfBytes?_bytesOfText`.
-/

set_option autoImplicit false

namespace FormWiring

/-! ## Segments -/

namespace Path

end Path

namespace FileSystem

/-! ## Places -/

/-- **Place after a segment.** -/
def stepped (place : Place) (segment : String) : Place :=
  if segment = "" ∨ segment = "." then place
  else if segment = ".." then place.dropLast
  else place ++ [segment]

theorem stepped_of_name {segment : String} (h : ¬(segment = "" ∨ segment = "." ∨ segment = "..")) (place : Place) :
    stepped place segment = place ++ [segment] := by
  rw [stepped, if_neg (by tauto), if_neg (by tauto)]

variable {fs fs' : FileSystem} {path parent : String} {place reached : Place} {bytes : List UInt8}

theorem walk_cons_eq_ok {segment : String} {rest : List String} :
    fs.walk (segment :: rest) place = .ok reached ↔
      fs.node? place = some .directory ∧ fs.walk rest (stepped place segment) = .ok reached := by
  have hstep : (if segment = "" ∨ segment = "." then fs.walk rest place
      else if segment = ".." then fs.walk rest place.dropLast else fs.walk rest (place ++ [segment])) =
      fs.walk rest (stepped place segment) := by
    unfold stepped
    split_ifs <;> rfl
  rw [walk, hstep]
  rcases fs.node? place with _ | ⟨bytes⟩ | _ <;> simp

/-- **A walk** goes the same way wherever the directories still are. -/
theorem walk_of_directories
    (h : ∀ place, fs.node? place = some .directory → fs'.node? place = some .directory)
    {segments : List String} (hwalk : fs.walk segments place = .ok reached) :
    fs'.walk segments place = .ok reached := by
  induction segments generalizing place with
  | nil => exact hwalk
  | cons segment rest ih =>
    obtain ⟨hplace, hrest⟩ := walk_cons_eq_ok.1 hwalk
    exact walk_cons_eq_ok.2 ⟨h place hplace, ih hrest⟩

/-! ## What paths find -/

/-- **What is asked of every path** before its segments are looked at. -/
theorem guards_eq_ok {α : Type} {rest : Except FileError α} {a : α} :
    ((do
      if path = "" then throw .notFound
      if path.toList.contains '\x00' then throw .invalidPath
      rest : Except FileError α) = .ok a) ↔ (path ≠ "" ∧ '\x00' ∉ path.toList) ∧ rest = .ok a := by
  by_cases hempty : path = ""
  · simp [hempty, throw, throwThe, MonadExceptOf.throw, bind, Except.bind]
  · by_cases hnul : '\x00' ∈ path.toList
    · simp [hempty, hnul, throw, throwThe, MonadExceptOf.throw, bind, Except.bind]
    · simp [hempty, hnul]

/-- **A path finds** the place that its segments lead to, and what it holds. -/
theorem find_eq_ok {node : FileNode} :
    fs.find path = .ok (place, node) ↔
      (path ≠ "" ∧ '\x00' ∉ path.toList) ∧ fs.walk (Path.segments path) (fs.start path) = .ok place ∧
        fs.node? place = some node := by
  rw [find, guards_eq_ok]
  refine and_congr_right fun _ => ?_
  rcases fs.walk (Path.segments path) (fs.start path) with e | found
  · exact iff_of_false nofun nofun
  · dsimp only [bind, Except.bind]
    constructor
    · intro h
      split at h
      · cases h
        exact ⟨rfl, ‹_›⟩
      · cases h
    · rintro ⟨hplace, hnode⟩
      cases hplace
      rw [hnode]
      rfl

theorem exists?_iff : fs.exists? path = true ↔ ∃ found, fs.find path = .ok found := by
  unfold exists?
  rcases fs.find path with e | found
  · exact iff_of_false nofun nofun
  · exact iff_of_true rfl ⟨found, rfl⟩

theorem exists?_eq_false_iff : fs.exists? path = false ↔ ∃ cause, fs.find path = .error cause := by
  unfold exists?
  rcases fs.find path with e | found
  · exact iff_of_true rfl ⟨e, rfl⟩
  · exact iff_of_false nofun nofun

theorem readBytes_eq_ok : fs.readBytes path = .ok bytes ↔ ∃ place, fs.find path = .ok (place, .file bytes) := by
  unfold readBytes
  rcases fs.find path with e | ⟨place, _ | _⟩
  · exact iff_of_false nofun nofun
  · simp [bind, Except.bind, pure, Except.pure]
  · exact iff_of_false nofun nofun

/-- **Trees**: what holds something is a directory. -/
def IsTree (fs : FileSystem) : Prop :=
  ∀ place name, (fs.node? (place ++ [name])).isSome → fs.node? place = some .directory

/-- **Grown file systems** hold what they held, and directories where nothing was. -/
structure Grows (fs fs' : FileSystem) : Prop where
  home : fs'.home = fs.home
  node? : ∀ place, fs'.node? place = fs.node? place ∨ fs.node? place = none ∧ fs'.node? place = some .directory
  isTree : fs.IsTree → fs'.IsTree

namespace Grows

theorem refl (fs : FileSystem) : fs.Grows fs := ⟨rfl, fun _ => .inl rfl, id⟩

theorem trans {fs₁ fs₂ fs₃ : FileSystem} (h₁ : fs₁.Grows fs₂) (h₂ : fs₂.Grows fs₃) : fs₁.Grows fs₃ := by
  refine ⟨h₂.home.trans h₁.home, fun place => ?_, h₂.isTree ∘ h₁.isTree⟩
  rcases h₁.node? place with h | ⟨h, h'⟩ <;> rcases h₂.node? place with k | ⟨k, k'⟩
  · exact .inl (k.trans h)
  · exact .inr ⟨h ▸ k, k'⟩
  · exact .inr ⟨h, k.trans h'⟩
  · rw [h'] at k
    cases k

theorem node?_of_some (h : fs.Grows fs') {node : FileNode} (hnode : fs.node? place = some node) :
    fs'.node? place = some node := by
  rcases h.node? place with k | ⟨k, -⟩
  · rw [k, hnode]
  · rw [hnode] at k
    cases k

theorem start (h : fs.Grows fs') (path : String) : fs'.start path = fs.start path := by
  rw [FileSystem.start, FileSystem.start, h.home]

/-- **What a path finds** it finds still. -/
theorem find (h : fs.Grows fs') {node : FileNode} (hfind : fs.find path = .ok (place, node)) :
    fs'.find path = .ok (place, node) := by
  obtain ⟨hpath, hwalk, hnode⟩ := find_eq_ok.1 hfind
  have hwalk' := walk_of_directories (fun place => h.node?_of_some) hwalk
  exact find_eq_ok.2 ⟨hpath, h.start path ▸ hwalk', h.node?_of_some hnode⟩

theorem readBytes (h : fs.Grows fs') (hread : fs.readBytes path = .ok bytes) : fs'.readBytes path = .ok bytes := by
  obtain ⟨place, hfind⟩ := readBytes_eq_ok.1 hread
  exact readBytes_eq_ok.2 ⟨place, h.find hfind⟩

end Grows

theorem toList_loop (bs : ByteArray) (i : Nat) (seen : List UInt8) :
    ByteArray.toList.loop bs i seen = seen.reverse ++ bs.data.toList.drop i := by
  fun_induction ByteArray.toList.loop bs i seen with
  | case1 i seen h ih =>
    have hi : i < bs.data.toList.length := h
    have hget : bs.get! i = bs.data.toList[i] := by
      change bs.data[i]! = _
      rw [getElem!_pos bs.data i h]
      rfl
    rw [ih, List.drop_eq_getElem_cons hi, List.reverse_cons, List.append_assoc, hget]
    rfl
  | case2 i seen h => rw [List.drop_of_length_le (Nat.le_of_not_lt h), List.append_nil]

/-- **A text** is read back from its bytes. -/
theorem textOfBytes?_bytesOfText (text : String) : textOfBytes? (bytesOfText text) = some text := by
  have hbytes : (⟨(bytesOfText text).toArray⟩ : ByteArray) = text.toByteArray := by
    rw [bytesOfText, ByteArray.toList, toList_loop]
    rfl
  unfold textOfBytes? String.fromUTF8?
  rw [hbytes, dif_pos text.isValidUTF8]
  rfl

theorem read_eq_ok_of_readBytes {text : String} (h : fs.readBytes path = .ok (bytesOfText text)) :
    fs.read path = .ok text := by
  rw [read, h]
  simp only [bind, Except.bind]
  rw [textOfBytes?_bytesOfText]
  rfl

theorem exists?_of_read {text : String} (h : fs.read path = .ok text) : fs.exists? path = true := by
  by_contra hmissing
  obtain ⟨cause, hfind⟩ := exists?_eq_false_iff.1 (Bool.eq_false_iff.2 hmissing)
  rw [read, readBytes, hfind] at h
  cases h

/-! ## One file -/

/-- A name leads from the root to the place of that name. -/
theorem walk_name (fs : FileSystem) {name : String} (hname : ¬(name = "" ∨ name = "." ∨ name = "..")) :
    fs.walk [name] [] = .ok [name] :=
  walk_cons_eq_ok.2 ⟨rfl, by rw [stepped_of_name hname]; rfl⟩

/-- **The only file**, where its name is a path, is read by that name. -/
theorem read_only {name : String} (hname : ¬(name = "" ∨ name = "." ∨ name = "..")) (hnul : '\x00' ∉ name.toList)
    (hsegments : Path.segments name = [name]) (text : String) :
    ({ nodes := [([name], .file (bytesOfText text))] } : FileSystem).read name = .ok text := by
  refine read_eq_ok_of_readBytes (readBytes_eq_ok.2 ⟨[name], find_eq_ok.2 ⟨⟨(not_or.1 hname).1, hnul⟩, ?_, ?_⟩⟩)
  · rw [hsegments, start, ite_self]
    exact walk_name _ hname
  · simp [node?]

/-- No other name is a path that exists. -/
theorem exists?_other {name other : String} (hother : ¬(other = "" ∨ other = "." ∨ other = ".."))
    (hsegments : Path.segments other = [other]) (hne : other ≠ name) (bytes : List UInt8) :
    ({ nodes := [([name], .file bytes)] } : FileSystem).exists? other = false := by
  rw [Bool.eq_false_iff, Ne, exists?_iff]
  rintro ⟨⟨place, node⟩, hfind⟩
  obtain ⟨-, hwalk, hnode⟩ := find_eq_ok.1 hfind
  rw [hsegments, start, ite_self, walk_name _ hother] at hwalk
  cases hwalk
  simp [node?, List.lookup_cons, beq_false_of_ne hne] at hnode

end FileSystem

end FormWiring
