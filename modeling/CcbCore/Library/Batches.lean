import Mathlib.Data.List.Chain
import Mathlib.Tactic.Common

/-!
# Greedy cuts of a list

A list is cut into chunks by adding its items one after another to the last chunk, as long
as they fit it. `Cut fits items chunks` says what comes of it: the chunks are the items in
their order, none is empty, and no chunk has room for the item after it. An item that fits
the last chunk grows it (`Cut.grow`), and one that does not begins another (`Cut.next`).
-/

namespace CcbCore.Batches

variable {α : Type*} {fits : List α → α → Prop} {items chunk : List α} {chunks : List (List α)} {item : α}

/-- The chunks of some items. -/
structure Cut (fits : List α → α → Prop) (items : List α) (chunks : List (List α)) : Prop where
  flatten : chunks.flatten = items
  nonempty : ∀ chunk ∈ chunks, chunk ≠ []
  full : chunks.IsChain fun chunk next => ∀ item ∈ next.head?, ¬ fits chunk item

theorem Cut.nil : Cut fits [] [] := ⟨rfl, nofun, .nil⟩

theorem Cut.single (item : α) : Cut fits [item] [[item]] := ⟨rfl, by simp, .singleton _⟩

/-- The last chunk takes another item: what comes after a chunk begins as it did. -/
theorem Cut.grow (h : Cut fits items (chunks ++ [chunk])) (hchunk : chunk ≠ []) (item : α) :
    Cut fits (items ++ [item]) (chunks ++ [chunk ++ [item]]) := by
  refine ⟨?_, ?_, ?_⟩
  · rw [← h.flatten]
    simp
  · intro other hother
    rcases List.mem_append.mp hother with hother | hother
    · exact h.nonempty other (List.mem_append_left _ hother)
    · rw [List.mem_singleton.mp hother]
      simp
  · have hfull := h.full
    rw [List.isChain_append] at hfull ⊢
    refine ⟨hfull.1, .singleton _, fun before hbefore next hnext first hfirst => ?_⟩
    obtain rfl : chunk ++ [item] = next := Option.some.inj hnext
    rw [List.head?_append_of_ne_nil _ hchunk] at hfirst
    exact hfull.2.2 before hbefore chunk rfl first hfirst

/-- An item that the last chunk has no room for begins another. -/
theorem Cut.next (h : Cut fits items (chunks ++ [chunk])) (hitem : ¬ fits chunk item) :
    Cut fits (items ++ [item]) (chunks ++ [chunk] ++ [[item]]) := by
  refine ⟨?_, ?_, ?_⟩
  · rw [List.flatten_append, h.flatten]
    rfl
  · intro other hother
    rcases List.mem_append.mp hother with hother | hother
    · exact h.nonempty other hother
    · rw [List.mem_singleton.mp hother]
      simp
  · rw [List.isChain_append]
    refine ⟨h.full, .singleton _, fun before hbefore next hnext first hfirst => ?_⟩
    obtain rfl : chunk = before := by simpa using hbefore
    obtain rfl : [item] = next := Option.some.inj hnext
    obtain rfl : item = first := Option.some.inj hfirst
    exact hitem

end CcbCore.Batches
