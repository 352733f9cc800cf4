import TagTemplate.Proofs.Result
import TagTemplate.Yaml.Document

/-!
# The entries of a root

Where the entries of a document are read, each key is the text of the node that is meant by it, and
each value that of the node that is meant by it, however many aliases were expanded before.
-/
namespace TagTemplate.Yaml

def rootOf (text : List Char) : Except Fault (Option Node) :=
  if (Text.trim text).isEmpty then .ok none else tokens text >>= tree

theorem readDocument_eq (text : List Char) :
    readDocument text = rootOf text >>= fun root => (root.map entriesOfRoot).getD (.ok []) := by
  rw [readDocument, rootOf]
  split_ifs with hblank
  · rfl
  · cases tokens text with
    | error fault => rfl
    | ok tokens =>
      rw [Result.ok_bind, Result.ok_bind]
      cases tree tokens with
      | error fault => rfl
      | ok root => cases root <;> rfl

/-- The node that is meant by a node, if it is not an alias without an anchor. -/
def Anchors.meant (anchors : Anchors) : Node → Option Node
  | .alias number => anchors.nodes.lookup number
  | node => some node

namespace Expansion

variable {α β : Type} {anchors : Anchors} {node meant : Node} {depth s t : Nat}

theorem exists_of_run_bind {x : Expansion α} {f : α → Expansion β} {b : β}
    (h : (x >>= f).run s = .ok (b, t)) :
    ∃ a u, x.run s = .ok (a, u) ∧ (f a).run u = .ok (b, t) := by
  rw [StateT.run_bind] at h
  obtain ⟨⟨a, u⟩, hx, hf⟩ := Result.bind_eq_ok_iff.1 h
  exact ⟨a, u, hx, hf⟩

theorem eq_of_run_pure {a b : α} (h : (pure a : Expansion α).run s = .ok (b, t)) : a = b := by
  cases h
  rfl

theorem forall₂_of_run_mapM {f : α → Expansion β} {as : List α} {bs : List β}
    (h : (as.mapM f).run s = .ok (bs, t)) :
    List.Forall₂ (fun a b => ∃ u v, (f a).run u = .ok (b, v)) as bs := by
  induction as generalizing s t bs with
  | nil =>
    rw [List.mapM_nil] at h
    cases eq_of_run_pure h
    exact .nil
  | cons a as ih =>
    rw [List.mapM_cons] at h
    obtain ⟨b, u, hb, h⟩ := exists_of_run_bind h
    obtain ⟨rest, v, hrest, h⟩ := exists_of_run_bind h
    cases eq_of_run_pure h
    exact .cons ⟨s, u, hb⟩ (ih hrest)

theorem meant_of_run_target (h : (target anchors node).run s = .ok (meant, t)) :
    anchors.meant node = some meant := by
  cases node with
  | «alias» number =>
    rw [target] at h
    obtain ⟨count, u, -, h⟩ := exists_of_run_bind h
    dsimp only at h
    split_ifs at h
    · cases h
    · obtain ⟨_, v, -, h⟩ := exists_of_run_bind h
      rw [Anchors.meant]
      cases hlookup : anchors.nodes.lookup number with
      | none =>
        rw [hlookup] at h
        cases h
      | some found =>
        rw [hlookup] at h
        rw [eq_of_run_pure h]
  | scalar properties plain text => exact congrArg some (eq_of_run_pure h)
  | sequence properties items => exact congrArg some (eq_of_run_pure h)
  | mapping properties entries => exact congrArg some (eq_of_run_pure h)

theorem meant_of_run_rootKey {key : String} (h : (rootKey anchors node).run s = .ok (key, t)) :
    ∃ properties plain, anchors.meant node = some (.scalar properties plain key) := by
  rw [rootKey] at h
  obtain ⟨found, u, htarget, h⟩ := exists_of_run_bind h
  have hmeant := meant_of_run_target htarget
  cases found with
  | scalar properties plain text =>
    cases eq_of_run_pure h
    exact ⟨properties, plain, hmeant⟩
  | «alias» number => cases h
  | sequence properties items => cases h
  | mapping properties entries => cases h

theorem scalarValue_of_run_value {properties : Properties} {plain : Bool} {text : String}
    {result : Value} (hmeant : anchors.meant node = some (.scalar properties plain text))
    (h : (value anchors depth node).run s = .ok (result, t)) :
    scalarValue properties.tag plain text = .ok result := by
  unfold value at h
  obtain ⟨found, u, htarget, h⟩ := exists_of_run_bind h
  cases Option.some.inj (hmeant.symm.trans (meant_of_run_target htarget))
  dsimp only at h
  cases hvalue : scalarValue properties.tag plain text with
  | error fault =>
    rw [hvalue] at h
    cases h
  | ok scalar =>
    rw [hvalue] at h
    cases h
    rfl

end Expansion

/-- Whether an entry of a document is what an entry of its root comes to: its key is the text of the
scalar that is meant, and if a scalar is meant as value, its value is that of the scalar. -/
def Anchors.Reads (anchors : Anchors) (nodes : Node × Node) (entry : String × Value) : Prop :=
  (∃ properties plain, anchors.meant nodes.1 = some (.scalar properties plain entry.1)) ∧
    ∀ properties plain text, anchors.meant nodes.2 = some (.scalar properties plain text) →
      scalarValue properties.tag plain text = .ok entry.2

theorem forall₂_of_entriesOfRoot {properties : Properties} {entries : List (Node × Node)}
    {document : Document} (h : entriesOfRoot (.mapping properties entries) = .ok document) :
    List.Forall₂ (Anchors.of (.mapping properties entries)).Reads entries document := by
  obtain ⟨⟨document, t⟩, hrun, rfl⟩ := Result.map_eq_ok_iff.1 h
  refine (Expansion.forall₂_of_run_mapM hrun).imp ?_
  rintro ⟨key, item⟩ entry ⟨u, v, hentry⟩
  obtain ⟨name, w, hkey, hentry⟩ := Expansion.exists_of_run_bind hentry
  obtain ⟨value, x, hvalue, hentry⟩ := Expansion.exists_of_run_bind hentry
  cases Expansion.eq_of_run_pure hentry
  exact ⟨Expansion.meant_of_run_rootKey hkey, fun properties plain text hmeant =>
    Expansion.scalarValue_of_run_value hmeant hvalue⟩

end TagTemplate.Yaml
