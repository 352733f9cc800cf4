import TagTemplate.Proofs.Command.Directory
import TagTemplate.Proofs.ModelFile.Change

/-!
# Model files in a directory

The bytes at a path are the text of a change to a model, if they are a text at all. A model file is
loaded exactly if there are such bytes and the change is sound, and then it defines what the change
binds. Otherwise what is reported is why there are no bytes, that they are no text, or what is wrong
with the change.
-/
namespace TagTemplate.ModelFile

open Directory

/-- Whether the bytes at a path are the text of a change, in the format that the path tells. -/
def Holds (d : Directory) (path : String) (change : Change) : Prop :=
  ∃ bytes text, d.readBytes path = .ok bytes ∧ String.fromUTF8? bytes = some text ∧
    change = if isJsonPath path then .json text else .yaml text

def Loads (d : Directory) (path : String) : Prop := ∃ change, Holds d path change ∧ change.Sound

def Defines (d : Directory) (path name value : String) : Prop :=
  ∃ change, Holds d path change ∧ change.Binds name value

inductive FailsToLoad (d : Directory) (path : String) : LoadError → Prop where
  | bytes {e : FileError} (h : d.readBytes path = .error e) : FailsToLoad d path (.file e)
  | text {bytes : ByteArray} (hbytes : d.readBytes path = .ok bytes)
      (h : String.fromUTF8? bytes = none) : FailsToLoad d path (.file .notUtf8)
  | change {change : Change} {e : LoadError} (hholds : Holds d path change)
      (h : change.Fails e) : FailsToLoad d path e

variable {d : Directory} {path name value : String} {change : Change} {e : LoadError}

theorem Defines.isTagName (h : Defines d path name value) : isTagName name.toList = true := by
  obtain ⟨change, -, hbinds⟩ := h
  exact hbinds.isTagName

theorem see_load (d : Directory) (path : String) : d.see (load host path) =
    match d.read path with
    | .ok text => ofText path text
    | .error e => .error (.file e) := by
  have hsee : d.see (host.readFile path) = d.read path := rfl
  rw [load, see_bind (readOnly_readFile path), hsee]
  cases d.read path with
  | ok text => rfl
  | error e => rfl

theorem see_load_of_holds (h : Holds d path change) : d.see (load host path) = change.file := by
  obtain ⟨bytes, text, hbytes, htext, rfl⟩ := h
  have hread : d.read path = .ok text := by rw [Directory.read, hbytes, Result.bind_ok, decodeText, htext]
  rw [see_load, hread]
  dsimp only
  rw [ofText]
  split
  · rfl
  · rfl

theorem see_load_of_failsToLoad (h : FailsToLoad d path e) :
    d.see (load host path) = .error e := by
  cases h with
  | bytes h => rw [see_load, Directory.read, h, Result.bind_error]
  | text hbytes h => rw [see_load, Directory.read, hbytes, Result.bind_ok, decodeText, h]
  | change hholds h => rw [see_load_of_holds hholds, Change.file_of_fails h]

theorem holds_or_failsToLoad (d : Directory) (path : String) :
    (∃ change, Holds d path change) ∨ ∃ e, FailsToLoad d path e := by
  cases hbytes : d.readBytes path with
  | error e => exact .inr ⟨_, .bytes hbytes⟩
  | ok bytes =>
    cases htext : String.fromUTF8? bytes with
    | none => exact .inr ⟨_, .text hbytes htext⟩
    | some text => exact .inl ⟨_, bytes, text, hbytes, htext, rfl⟩

theorem Holds.unique {other : Change} (h : Holds d path change) (h' : Holds d path other) :
    other = change := by
  obtain ⟨bytes, text, hbytes, htext, rfl⟩ := h
  obtain ⟨bytes', text', hbytes', htext', rfl⟩ := h'
  cases hbytes.symm.trans hbytes'
  cases htext.symm.trans htext'
  rfl

theorem Holds.defines_iff (h : Holds d path change) :
    Defines d path name value ↔ change.Binds name value := by
  constructor
  · rintro ⟨other, hother, hbinds⟩
    exact h.unique hother ▸ hbinds
  · intro hbinds
    exact ⟨change, h, hbinds⟩

theorem exists_see_load_iff_loads :
    (∃ file, d.see (load host path) = .ok file) ↔ Loads d path := by
  constructor
  · rintro ⟨file, h⟩
    rcases holds_or_failsToLoad d path with ⟨change, hholds⟩ | ⟨e, hfails⟩
    · rw [see_load_of_holds hholds] at h
      exact ⟨change, hholds, Change.exists_file_iff_sound.1 ⟨file, h⟩⟩
    · rw [see_load_of_failsToLoad hfails] at h
      cases h
  · rintro ⟨change, hholds, hsound⟩
    rw [see_load_of_holds hholds]
    exact Change.exists_file_iff_sound.2 hsound

theorem see_load_eq_error_iff : d.see (load host path) = .error e ↔ FailsToLoad d path e := by
  refine ⟨fun h => ?_, see_load_of_failsToLoad⟩
  rcases holds_or_failsToLoad d path with ⟨change, hholds⟩ | ⟨e', hfails⟩
  · rw [see_load_of_holds hholds] at h
    exact .change hholds (Change.file_eq_error_iff_fails.1 h)
  · rw [see_load_of_failsToLoad hfails] at h
    exact Except.error.inj h ▸ hfails

theorem exists_lookup_see_load_iff_defines :
    (∃ file, d.see (load host path) = .ok file ∧ file.values.lookup name = some value) ↔
      Defines d path name value := by
  constructor
  · rintro ⟨file, h, hvalue⟩
    obtain ⟨change, hholds, -⟩ := exists_see_load_iff_loads.1 ⟨file, h⟩
    rw [see_load_of_holds hholds] at h
    exact hholds.defines_iff.2 (Change.exists_lookup_file_iff_binds.1 ⟨file, h, hvalue⟩)
  · rintro ⟨change, hholds, hbinds⟩
    rw [see_load_of_holds hholds]
    exact Change.exists_lookup_file_iff_binds.2 hbinds

end TagTemplate.ModelFile
