import Mathlib

/-!
# Nested priority arbitration

Channels of a linear order request service.  A channel is deliverable when it
requests and outranks every channel in service.  The channel granted is the
greatest deliverable one.
-/

namespace PistormAtari
namespace Foundation

variable {α : Type _} [LinearOrder α]

def Deliverable (requests inService : Set α) : Set α :=
  { a | a ∈ requests ∧ forall b, b ∈ inService -> b < a }

theorem isGreatest_requests_of_deliverable {requests inService : Set α} {a : α}
    (h : IsGreatest (Deliverable requests inService) a) : IsGreatest requests a := by
  refine ⟨h.1.1, ?_⟩
  intro b hb
  rcases le_or_gt b a with hle | hlt
  · exact hle
  · have hdel : b ∈ Deliverable requests inService := by
      refine ⟨hb, ?_⟩
      intro c hc
      exact lt_trans (h.1.2 c hc) hlt
    exact h.2 hdel

/-!
## Grants without a release
-/

/-- A grant of the arbiter in a state with the given channels in service, with
the channels in service afterwards. -/
structure Grant (before : Set α) (a : α) (after : Set α) : Prop where
  above : forall b, b ∈ before -> b < a
  held : a ∈ after
  kept : before ⊆ after

def GrantChain : Set α -> List (α × Set α) -> Prop
  | _, [] => True
  | srv, (a, srv') :: rest => Grant srv a srv' ∧ GrantChain srv' rest

theorem grantChain_mono {srv srv' : Set α} (hsub : srv ⊆ srv')
    {grants : List (α × Set α)} (h : GrantChain srv' grants) :
    GrantChain srv grants := by
  cases grants with
  | nil => trivial
  | cons g rest =>
      obtain ⟨⟨habove, hheld, hkept⟩, hrest⟩ := h
      exact ⟨⟨fun b hb => habove b (hsub hb), hheld, hsub.trans hkept⟩, hrest⟩

theorem lt_of_grantChain {srv : Set α} {grants : List (α × Set α)}
    (h : GrantChain srv grants) {b : α} (hb : b ∈ srv) :
    forall a, a ∈ grants.map Prod.fst -> b < a := by
  induction grants generalizing srv with
  | nil =>
      intro a ha
      cases ha
  | cons g rest ih =>
      intro a ha
      rw [List.map_cons, List.mem_cons] at ha
      rcases ha with rfl | ha
      · exact h.1.above b hb
      · exact ih h.2 (h.1.kept hb) a ha

theorem pairwise_lt_of_grantChain {srv : Set α} {grants : List (α × Set α)}
    (h : GrantChain srv grants) : (grants.map Prod.fst).Pairwise (· < ·) := by
  induction grants generalizing srv with
  | nil => exact List.Pairwise.nil
  | cons g rest ih =>
      rw [List.map_cons]
      exact List.Pairwise.cons (lt_of_grantChain h.2 h.1.held) (ih h.2)

end Foundation
end PistormAtari
