import TagTemplate.Proofs.Template.Append
import TagTemplate.Proofs.Template.Doubles
import TagTemplate.Proofs.Template.Names

/-!
# The order of appearance

The distinct names of a template are those of its tags, each where its first tag stands among the
first tags of the others. Templates put together have the tags of the first and then those of the
second, moved by the size of the first, unless a run of opening braces crosses the border. So they
have the names of the first, and then those of the second that are new.
-/
namespace TagTemplate

variable {source template : String} {offset : Nat} {text rest : List Char} {tags more : List Tag}
  {names : List String}

theorem Tag.shift_zero (tag : Tag) : tag.shift 0 = tag := by
  rw [shift, Nat.zero_add, Nat.zero_add]

theorem map_name_shift (shift : Nat) (tags : List Tag) :
    (tags.map (Tag.shift shift)).map Tag.name = tags.map Tag.name := by
  rw [List.map_map]
  rfl

/-- Elsewhere in a source, or in another source, the tags of a text are at other places. -/
theorem tagsByRuns_shift (h : tagsByRuns source offset text = .ok tags) (source' : String)
    (shift : Nat) :
    tagsByRuns source' (shift + offset) text = .ok (tags.map (Tag.shift shift)) := by
  rw [tagsByRuns] at h ⊢
  cases hfind : (doubles text).find? (isBad text) with
  | some i =>
    rw [hfind] at h
    cases h
  | none =>
    rw [hfind] at h
    rw [← Except.ok.inj h, List.map_map]
    dsimp only
    congr 1
    apply List.map_congr_left
    intro i _
    simp only [Function.comp_apply, Tag.shift, Nat.add_assoc]

/-- A text that can be scanned leaves what follows it to be scanned on its own. -/
theorem tagsByRuns_append_of_ok (h : tagsByRuns source offset text = .ok tags)
    (hborder : ¬(text.getLast? = some '{' ∧ rest.head? = some '{')) :
    tagsByRuns source offset (text ++ rest) =
      (tagsByRuns source (offset + Text.size text) rest).map (tags ++ ·) := by
  induction text using Piece.text_induction generalizing offset tags with
  | nil =>
    obtain rfl : tags = [] := (Except.ok.inj h).symm
    exact (Result.map_eq_self (fun _ => List.nil_append _) _).symm
  | fault fault text hfault =>
    rw [tagsByRuns_fault source offset hfault] at h
    cases h
  | piece piece tail hwf hends ih =>
    have hpiece := Piece.border_of_endsBefore hwf hends
    obtain ⟨htail, hjoined⟩ := Piece.border_of_append hpiece hborder
    have hdoubles := doubles_print hwf
    rw [List.append_assoc, Text.size_append, ← Nat.add_assoc]
    cases piece with
    | literal text =>
      rw [tagsByRuns_append source offset hpiece hdoubles] at h
      rw [tagsByRuns_append source offset hjoined hdoubles, ih h htail]
    | escape length =>
      rw [tagsByRuns_append source offset hpiece hdoubles] at h
      rw [tagsByRuns_append source offset hjoined hdoubles, ih h htail]
    | tag left name right =>
      rw [tagsByRuns_tag source offset hwf] at h
      obtain ⟨tags', htags', rfl⟩ := Result.map_eq_ok_iff.1 h
      rw [tagsByRuns_tag source offset hwf, ih htags' htail, Result.map_map]
      simp only [List.cons_append]

theorem placeholders_eq_tagsByRuns (template : String) :
    placeholders template = tagsByRuns template 0 template.toList := by
  rw [placeholders, scan_eq_resultsFrom, collectTags_resultsFrom]

theorem placeholders_append {a b : String} (ha : placeholders a = .ok tags)
    (hb : placeholders b = .ok more)
    (hborder : ¬(a.toList.getLast? = some '{' ∧ b.toList.head? = some '{')) :
    placeholders (a ++ b) = .ok (tags ++ more.map (Tag.shift (Text.size a.toList))) := by
  rw [placeholders_eq_tagsByRuns] at ha hb ⊢
  have hfirst := tagsByRuns_shift ha (a ++ b) 0
  have hsecond := tagsByRuns_shift hb (a ++ b) (Text.size a.toList)
  rw [Nat.zero_add, List.map_id'' Tag.shift_zero] at hfirst
  rw [String.toList_append, tagsByRuns_append_of_ok hfirst hborder, Nat.zero_add,
    ← Nat.add_zero (Text.size a.toList), hsecond, Result.map_ok, Nat.add_zero]

theorem tagNames_eq_ok_iff : tagNames template = .ok names ↔
    ∃ tags, placeholders template = .ok tags ∧ (tags.map Tag.name).eraseDups = names := by
  rw [tagNames, Result.map_eq_ok_iff]

theorem tagNames_of_placeholders (h : placeholders template = .ok tags) :
    tagNames template = .ok (tags.map Tag.name).eraseDups :=
  tagNames_eq_ok_iff.2 ⟨tags, h, rfl⟩

theorem tagNames_append {a b : String} {namesA namesB : List String}
    (ha : tagNames a = .ok namesA) (hb : tagNames b = .ok namesB)
    (hborder : ¬(a.toList.getLast? = some '{' ∧ b.toList.head? = some '{')) :
    tagNames (a ++ b) = .ok (namesA ++ namesB.filter fun name => !namesA.contains name) := by
  obtain ⟨tags, htags, rfl⟩ := tagNames_eq_ok_iff.1 ha
  obtain ⟨more, hmore, rfl⟩ := tagNames_eq_ok_iff.1 hb
  rw [tagNames_of_placeholders (placeholders_append htags hmore hborder), List.map_append,
    map_name_shift, Names.eraseDups_append]

theorem idxOf_map_name (tags : List Tag) (name : String) :
    (tags.map Tag.name).idxOf name = tags.findIdx (·.name == name) := by
  rw [List.idxOf, List.findIdx_map]
  rfl

/-- The names of a template are those of its tags, taken up one by one where they first appear, and
templates put together have the names of the first and then the new ones of the second. -/
theorem tagNames_first_appearance (template : String) :
    (∀ e, tagNames template = .error e ↔ placeholders template = .error e) ∧
    (∀ tags, placeholders template = .ok tags → ∃ names, tagNames template = .ok names ∧
      names = (tags.map Tag.name).foldl Names.addNew [] ∧ names.Nodup ∧
      (∀ name, name ∈ names ↔ ∃ tag ∈ tags, tag.name = name) ∧
      ∀ name name', names.idxOf name < names.idxOf name' ↔
        tags.findIdx (·.name == name) < tags.findIdx (·.name == name')) ∧
    ∀ next names names', tagNames template = .ok names → tagNames next = .ok names' →
      ¬(template.toList.getLast? = some '{' ∧ next.toList.head? = some '{') →
      tagNames (template ++ next) =
        .ok (names ++ names'.filter fun name => !names.contains name) := by
  refine ⟨fun e => Result.map_eq_error_iff, fun tags h => ?_,
    fun next names names' => tagNames_append⟩
  refine ⟨_, tagNames_of_placeholders h, (Names.foldl_addNew _).symm, Names.nodup_eraseDups _,
    fun name => ?_, fun name name' => ?_⟩
  · rw [List.mem_eraseDups, List.mem_map]
  · rw [Names.idxOf_eraseDups_lt_iff, idxOf_map_name, idxOf_map_name]

theorem tagNames_first_appearance_sample :
    (∃ names, tagNames "\x7b\x7bb\x7d\x7d\x7b\x7b a\x7d\x7d\x7b\x7bb\n\x7d\x7d" = .ok names ∧
      names.idxOf "b" < names.idxOf "a") ∧
    tagNames ("\x7b\x7bb\x7d\x7d\x7b\x7ba\x7d\x7d\x7b" ++ "\x7d\x7b\x7ba\x7d\x7d\x7b\x7bc\x7d\x7d") =
      .ok ["b", "a", "c"] := by
  have htags : placeholders "\x7b\x7bb\x7d\x7d\x7b\x7b a\x7d\x7d\x7b\x7bb\n\x7d\x7d" =
      .ok [⟨"b", 0, 5⟩, ⟨"a", 5, 11⟩, ⟨"b", 11, 17⟩] := by decide +kernel
  have hfirst : tagNames "\x7b\x7bb\x7d\x7d\x7b\x7ba\x7d\x7d\x7b" = .ok ["b", "a"] := by
    decide +kernel
  have hnext : tagNames "\x7d\x7b\x7ba\x7d\x7d\x7b\x7bc\x7d\x7d" = .ok ["a", "c"] := by
    decide +kernel
  constructor
  · obtain ⟨names, hnames, -, -, -, horder⟩ := (tagNames_first_appearance _).2.1 _ htags
    exact ⟨names, hnames, (horder "b" "a").2 (by decide)⟩
  · exact (tagNames_first_appearance _).2.2 _ _ _ hfirst hnext (by decide)

end TagTemplate
