import Mathlib.Data.List.Infix
import ProtoFront.Symbol.Collect

/-!
# Names with dots

Qualifying a name by one scope after the other joins their names with dots, as long as none of them
is empty: an empty name in front adds no dot. The packages that a dotted name is in are what
its parts in front of each dot come to.
-/

namespace ProtoFront

variable {scope name : String} {parts : List String}

/-! ## Scopes -/

@[simp] theorem qualify_empty (name : String) : qualify "" name = name := rfl

theorem qualify_of_ne (h : scope ≠ "") : qualify scope name = scope ++ "." ++ name := by
  rw [qualify, if_neg (by simpa using h)]

theorem intercalate_ne_empty (nonempty : ∀ part ∈ parts, part ≠ "") (h : parts ≠ []) :
    ".".intercalate parts ≠ "" := by
  cases parts with
  | nil => exact absurd rfl h
  | cons first rest =>
    have hfirst := nonempty first List.mem_cons_self
    cases rest with
    | nil => rwa [String.intercalate_singleton]
    | cons second rest =>
      rw [String.intercalate_cons_cons]
      intro hjoined
      simp [hfirst] at hjoined

/-- A name inside a scope whose parts are joined with dots is joined to them with a dot. -/
theorem qualify_intercalate (nonempty : ∀ part ∈ parts, part ≠ "") (name : String) :
    qualify (".".intercalate parts) name = ".".intercalate (parts ++ [name]) := by
  by_cases h : parts = []
  · rw [h, String.intercalate_nil, qualify_empty, List.nil_append, String.intercalate_singleton]
  · rw [qualify_of_ne (intercalate_ne_empty nonempty h),
      String.intercalate_append_of_ne_nil h (List.cons_ne_nil _ _), String.intercalate_singleton]

/-- Qualifying part after part joins the parts. -/
theorem foldl_qualify (nonempty : ∀ part ∈ parts, part ≠ "") :
    parts.foldl qualify "" = ".".intercalate parts := by
  induction parts using List.reverseRecOn with
  | nil => rfl
  | append_singleton parts last ih =>
    have before (part) (h : part ∈ parts) : part ≠ "" :=
      nonempty part (List.mem_append_left _ h)
    rw [List.foldl_append, ih before]
    exact qualify_intercalate before last

/-! ## Packages -/

/-- What the parts of a name in front of each dot come to, and the name itself, parts that are empty
left out. -/
def dottedPrefixes (name : String) : List String :=
  let parts := ((name.toList.splitOn '.').filter (· ≠ [])).map String.ofList
  parts.inits.tail.map (".".intercalate ·)

example : dottedPrefixes "a.b.c" = ["a", "a.b", "a.b.c"] := by decide +kernel

theorem dottedParts_eq (text : List Char) : dottedParts text = text.splitOn '.' := by
  induction text with
  | nil => rfl
  | cons c rest ih =>
    rw [dottedParts, ih, List.splitOn_cons_eq_if_modifyHead]
    split
    case isTrue => rfl
    case isFalse =>
      rcases hrest : rest.splitOn '.' with _ | ⟨first, more⟩
      · exact absurd hrest (List.splitOn_ne_nil _ _)
      · rfl

/-- Every part of a name makes one package, inside the one before it. -/
theorem foldl_packages (parts : List (List Char)) :
    parts.foldl (fun (all, outer) part =>
      let inner := qualify outer (String.ofList part)
      (all ++ [inner], inner)) (([] : List String), "") =
      ((parts.map String.ofList).inits.tail.map fun taken => taken.foldl qualify "",
        (parts.map String.ofList).foldl qualify "") := by
  induction parts using List.reverseRecOn with
  | nil => rfl
  | append_singleton parts last ih =>
    have longest : ([String.ofList last].inits.tail.map fun taken =>
        parts.map String.ofList ++ taken) = [parts.map String.ofList ++ [String.ofList last]] := rfl
    have started : (parts.map String.ofList).inits ≠ [] := by
      rw [← List.length_pos_iff, List.length_inits]
      exact Nat.succ_pos _
    rw [List.foldl_append, ih, List.map_append, List.map_singleton, List.inits_append, longest,
      List.tail_append_of_ne_nil started, List.map_append, List.foldl_append]
    simp

theorem packagePrefixes_eq (name : String) : packagePrefixes name = dottedPrefixes name := by
  have kept : (dottedParts name.toList).filter (!·.isEmpty) =
      (name.toList.splitOn '.').filter (· ≠ []) := by
    rw [dottedParts_eq]
    refine List.filter_congr fun part _ => ?_
    cases part <;> rfl
  rw [packagePrefixes, kept, foldl_packages, dottedPrefixes]
  refine List.map_congr_left fun taken htaken => foldl_qualify fun part hpart => ?_
  have hparts := (List.mem_inits _ _).mp (List.mem_of_mem_tail htaken)
  obtain ⟨chars, hchars, rfl⟩ := List.mem_map.mp (hparts.subset hpart)
  have nonempty := (List.mem_filter.mp hchars).2
  simpa using nonempty

end ProtoFront
