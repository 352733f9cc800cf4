import TagTemplate.File.Directory
import TagTemplate.Proofs.Result
import TagTemplate.Proofs.Table

/-!
# Writing a file into a directory

A file that is written is the only one that is made or changed, and its path leads to it again, for
no directory on the way is lost by writing it.
-/
namespace TagTemplate

theorem Table.mem_keys_insert {α : Type u} {t : Table α} {key k : String} {value : α}
    (h : k ∈ t.toList.map Prod.fst) : k ∈ (t.insert key value).toList.map Prod.fst := by
  obtain ⟨v, hv⟩ := exists_lookup_iff.2 h
  rw [← exists_lookup_iff]
  by_cases heq : k = key
  · exact ⟨value, by rw [lookup_insert, if_pos heq]⟩
  · exact ⟨v, by rw [lookup_insert, if_neg heq, hv]⟩

namespace Directory

variable {d d' : Directory} {path text : String} {contents : ByteArray}
  {here next route : Route} {name : List Char} {place : Place}

/-- Whether a path names what is kept under a key of the files, if anything is. -/
def LeadsTo (d : Directory) (path key : String) : Prop :=
  ∃ here name route place, d.enterParent path = .ok (here, name) ∧
    d.follow here name = .ok (route, place) ∧ route.path = key

def put (d : Directory) (key : String) (contents : ByteArray) : Directory :=
  { d with files := d.files.insert key contents }

theorem at?_of_isAround (h : route.isAround = true) : d.at? route = .directory := by
  rw [at?, if_pos h]

theorem at?_eq_of_path_eq {other : Route} (hroute : route.isAround = false)
    (hother : other.isAround = false) (h : route.path = other.path) :
    d.at? route = d.at? other := by
  simp only [at?, hroute, hother, h]

theorem isAround_of_at? (h : d.at? route ≠ .directory) : route.isAround = false :=
  Bool.eq_false_iff.2 fun haround => h (at?_of_isAround haround)

theorem at?_eq_directory_iff (h : route.isAround = false) :
    d.at? route = .directory ↔ d.files.lookup route.path = none ∧
      ∃ key ∈ d.files.toList.map Prod.fst, (route.path.toList ++ ['/']).isPrefixOf key.toList := by
  rw [at?, if_neg (by simp [h])]
  cases d.files.lookup route.path with
  | some contents => simp
  | none => simp [List.any_eq_true]

/-- A directory stays one when a file is put elsewhere. -/
theorem at?_put {other : Route} (hother : d.at? other ≠ .directory)
    (h : d.at? route = .directory) : (d.put other.path contents).at? route = .directory := by
  by_cases haround : route.isAround = true
  · exact at?_of_isAround haround
  · have hroute : route.isAround = false := Bool.eq_false_iff.2 haround
    have hne : route.path ≠ other.path := by
      intro heq
      rw [at?_eq_of_path_eq hroute (isAround_of_at? hother) heq] at h
      exact hother h
    obtain ⟨hnone, key, hkey, hinside⟩ := (at?_eq_directory_iff hroute).1 h
    refine (at?_eq_directory_iff hroute).2 ⟨?_, key, Table.mem_keys_insert hkey, hinside⟩
    rw [put, Table.lookup_insert, if_neg hne, hnone]

theorem at?_put_self (h : d.at? route ≠ .directory) :
    (d.put route.path contents).at? route = .file contents := by
  rw [at?, if_neg (by simp [isAround_of_at? h]), put, Table.lookup_insert, if_pos rfl]

/-- Where a name leads is the same in all directories, unless it is looked up among the files. -/
theorem follow_cases (here : Route) (name : List Char) :
    (∃ result, (∀ d : Directory, d.follow here name = result) ∧
      ∀ route place, result = .ok (route, place) → place = .directory) ∨
    ∀ d : Directory, d.follow here name = .ok (name :: here, d.at? (name :: here)) := by
  by_cases hdot : name = ['.']
  · refine .inl ⟨.ok (here, .directory), fun d => if_pos hdot, fun route place h => ?_⟩
    exact (Prod.mk.inj (Except.ok.inj h)).2.symm
  · by_cases hdots : name = ['.', '.']
    · refine .inl ⟨.ok (here.parent, .directory), fun d => ?_, fun route place h => ?_⟩
      · rw [follow, if_neg hdot, if_pos hdots]
      · exact (Prod.mk.inj (Except.ok.inj h)).2.symm
    · by_cases hsize : nameLimit < Text.size name
      · refine .inl ⟨.error .nameTooLong, fun d => ?_, fun route place h => by cases h⟩
        rw [follow, if_neg hdot, if_neg hdots, if_pos hsize]
      · refine .inr fun d => ?_
        rw [follow, if_neg hdot, if_neg hdots, if_neg hsize]

theorem follow_of_ne_directory (h : d.follow here name = .ok (route, place))
    (hplace : place ≠ .directory) :
    ∀ d' : Directory, d'.follow here name = .ok (route, d'.at? route) := by
  rcases follow_cases here name with ⟨result, hall, hdirectory⟩ | hall
  · rw [hall] at h
    exact absurd (hdirectory _ _ h) hplace
  · rw [hall] at h
    cases h
    exact hall

theorem enter_eq_ok_iff : d.enter here name = .ok next ↔
    d.follow here name = .ok (next, .directory) := by
  rw [enter, Result.bind_eq_ok_iff]
  constructor
  · rintro ⟨⟨route, place⟩, hfollow, h⟩
    cases place with
    | directory =>
      cases h
      exact hfollow
    | file contents => cases h
    | nothing => cases h
  · intro hfollow
    exact ⟨_, hfollow, rfl⟩

section Put

variable {other : Route} (hother : d.at? other ≠ .directory)

include hother

theorem enter_put (h : d.enter here name = .ok next) :
    (d.put other.path contents).enter here name = .ok next := by
  rw [enter_eq_ok_iff] at h ⊢
  rcases follow_cases here name with ⟨result, hall, -⟩ | hall
  · rw [hall] at h ⊢
    exact h
  · rw [hall, Except.ok.injEq, Prod.mk.injEq] at h
    rw [hall, at?_put hother h.2, h.1]

theorem foldlM_enter_put {names : List (List Char)} {start : Route}
    (h : names.foldlM d.enter start = .ok here) :
    names.foldlM (d.put other.path contents).enter start = .ok here := by
  induction names generalizing start with
  | nil => exact h
  | cons name names ih =>
    rw [List.foldlM_cons, Result.bind_eq_ok_iff] at h ⊢
    obtain ⟨next, hnext, hrest⟩ := h
    exact ⟨next, enter_put hother hnext, ih hrest⟩

theorem enterParent_put (h : d.enterParent path = .ok (here, name)) :
    (d.put other.path contents).enterParent path = .ok (here, name) := by
  unfold enterParent at h ⊢
  split at h
  · cases h
  · rename_i hnul
    split at h
    · cases h
    · rename_i hempty
      split at h
      · cases h
      · rename_i hlong
        obtain ⟨inner, hinner, hend⟩ := Result.bind_eq_ok_iff.1 h
        rw [if_neg hnul, if_neg hempty, if_neg hlong]
        exact Result.bind_eq_ok_iff.2 ⟨inner, foldlM_enter_put hother hinner, hend⟩

end Put

theorem exists_of_writeBytes (h : d.writeBytes path contents = .ok d') :
    ∃ here name route, d.enterParent path = .ok (here, name) ∧
      d.follow here name = .ok (route, d.at? route) ∧ d.at? route ≠ .directory ∧
      endsInSlash path = false ∧ d' = d.put route.path contents := by
  obtain ⟨⟨here, name⟩, hparent, h⟩ := Result.bind_eq_ok_iff.1 h
  dsimp only at h
  split at h
  · cases h
  · rename_i hslash
    obtain ⟨⟨route, place⟩, hfollow, h⟩ := Result.bind_eq_ok_iff.1 h
    have hplace : place ≠ .directory := by
      rintro rfl
      cases h
    have hagain := follow_of_ne_directory hfollow hplace d
    have hat : place = d.at? route := by
      rw [hfollow] at hagain
      exact (Prod.mk.inj (Except.ok.inj hagain)).2
    subst hat
    refine ⟨here, name, route, hparent, hfollow, hplace, Bool.eq_false_iff.2 hslash, ?_⟩
    split at h
    · cases h
    · rename_i heq
      cases heq
      exact (Except.ok.inj h).symm

theorem decodeText_toUTF8 (text : String) : decodeText text.toUTF8 = .ok text := by
  have h : String.fromUTF8? text.toUTF8 = some text := dif_pos text.isValidUTF8
  rw [decodeText, h]

/-- How a directory is left by a text that is written into a file: no other file is made or changed,
and the file holds exactly the text. -/
structure Replaces (d : Directory) (path text : String) (d' : Directory) : Prop where
  files_eq : ∃ key, d.LeadsTo path key ∧ d'.files.lookup key = some text.toUTF8 ∧
    ∀ other, other ≠ key → d'.files.lookup other = d.files.lookup other
  input_eq : d'.input = d.input
  read_eq : d'.read path = .ok text

theorem replaces_of_write (h : d.write path text = .ok d') : d.Replaces path text d' := by
  obtain ⟨here, name, route, hparent, hfollow, hplace, hslash, rfl⟩ := exists_of_writeBytes h
  refine ⟨⟨route.path, ⟨here, name, route, _, hparent, hfollow, rfl⟩, ?_, ?_⟩, rfl, ?_⟩
  · rw [put, Table.lookup_insert, if_pos rfl]
  · intro other hne
    rw [put, Table.lookup_insert, if_neg hne]
  · have hread : (d.put route.path text.toUTF8).readBytes path = .ok text.toUTF8 := by
      have hagain := follow_of_ne_directory hfollow hplace (d.put route.path text.toUTF8)
      rw [at?_put_self hplace] at hagain
      rw [readBytes, enterParent_put hplace hparent, Result.ok_bind]
      dsimp only
      rw [hagain, Result.ok_bind]
      dsimp only
      rw [hslash, if_neg Bool.false_ne_true]
    rw [read, hread, Result.bind_ok, decodeText_toUTF8]

end Directory

end TagTemplate
