import ResponseShape.Proofs.Segments
import ResponseShape.Proofs.Together

/-! The scan of a text, segment by segment, and texts that scan to the same tokens. -/
namespace ResponseShape

/-- The stream with the token of a segment in front; blanks and comments add none. -/
def Segment.onto (s : Segment) (p : Position) (later : TokenStream) : TokenStream :=
  match s.kind with
  | none => later
  | some kind => ⟨⟨kind, String.ofList s.lexeme, p⟩ :: later.tokens, later.stop⟩

theorem Segment.onto_alike {s : Segment} {p p' : Position} {later later' : TokenStream}
    (h : later.Alike later') : (s.onto p later).Alike (s.onto p' later') := by
  unfold onto
  cases s.kind with
  | none => exact h
  | some kind => exact .cons ⟨rfl, fun _ => rfl⟩ h

namespace TokenStream

open Segment

theorem scan_cons {p : Position} {c : Char} {rest : List Char} {s : Segment}
    (read : first c rest = .ok (some s)) :
    scan p (c :: rest) = (scan (p.advance s.lexeme) s.rest).map (s.onto p) := by
  rw [scan]
  split
  · next h => rw [read] at h; cases h
  · next h => rw [read] at h; cases h
  · next s' h =>
    obtain rfl : s = s' := Option.some_inj.1 (Except.ok.inj (read ▸ h))
    cases scan (p.advance s.lexeme) s.rest with
    | error e => rfl
    | ok later =>
      unfold onto
      cases s.kind <;> rfl

theorem scan_end {p : Position} {c : Char} {rest : List Char} (read : first c rest = .ok none) :
    scan p (c :: rest) = .ok ⟨[], p⟩ := by
  rw [scan]
  split
  · next h => rw [read] at h; cases h
  · rfl
  · next h => rw [read] at h; cases h

theorem scan_error {p : Position} {c : Char} {rest : List Char} {fault : Fault}
    (read : first c rest = .error fault) : scan p (c :: rest) = .error ⟨fault, p⟩ := by
  rw [scan]
  split
  · next h =>
    rw [read] at h
    cases h
    rfl
  · next h => rw [read] at h; cases h
  · next h => rw [read] at h; cases h

theorem scan_nil {p : Position} : scan p [] = .ok ⟨[], p⟩ := by rw [scan]

theorem openTagLength_tagged {blanks : List Char} (blank : ∀ c ∈ blanks, Text.isBlank c = true)
    (more : List Char) :
    openTagLength (blanks ++ openTag ++ more) =
      (String.ofList blanks).utf8ByteSize + openTag.length := by
  have tag : Text.isBlank '<' = false := by decide
  unfold openTagLength
  rw [List.append_assoc, List.takeWhile_append_of_pos blank, List.dropWhile_append_of_pos blank]
  simp [openTag, tag]

/-- Where the first text can be scanned, the second gives tokens that say the same. -/
def Rescans (text text' : List Char) : Prop :=
  ∀ p p' s, scan p text = .ok s → ∃ s', scan p' text' = .ok s' ∧ s.Alike s'

namespace Rescans

variable {text text' : List Char} {c : Char} {rest rest' : List Char} {s : Segment}

theorem segment (read : first c rest = .ok (some s))
    (read' : first c rest' = .ok (some { s with rest := text' })) (h : Rescans s.rest text') :
    Rescans (c :: rest) (c :: rest') := by
  intro p p' stream scanned
  rw [scan_cons read] at scanned
  rw [scan_cons read']
  cases later : scan (p.advance s.lexeme) s.rest with
  | error e =>
    rw [later] at scanned
    cases scanned
  | ok stream' =>
    rw [later] at scanned
    cases scanned
    obtain ⟨again, scanned', alike⟩ := h _ (p'.advance s.lexeme) _ later
    exact ⟨_, by rw [scanned']; rfl, onto_alike alike⟩

theorem refl (text : List Char) : Rescans text text := by
  induction n : text.length using Nat.strong_induction_on generalizing text with
  | _ n ih =>
    subst n
    cases text with
    | nil =>
      intro p p' stream scanned
      rw [scan_nil] at scanned
      cases scanned
      exact ⟨_, scan_nil, .nil⟩
    | cons c rest =>
      cases read : first c rest with
      | error e =>
        intro p p' stream scanned
        rw [scan] at scanned
        split at scanned <;> simp_all
      | ok answer =>
        cases answer with
        | none =>
          intro p p' stream scanned
          rw [scan_end read] at scanned
          cases scanned
          exact ⟨_, scan_end read, .nil⟩
        | some s =>
          refine segment read read (ih _ ?_ s.rest rfl)
          obtain ⟨covers, some⟩ := first_covers read
          have := List.length_pos_iff.2 some
          rw [← covers, List.length_append]
          omega

theorem skip (read : first c rest = .ok (some s)) (empty : s.kind = none)
    (h : Rescans text s.rest) : Rescans text (c :: rest) := by
  intro p p' stream scanned
  obtain ⟨again, scanned', alike⟩ := h p (p'.advance s.lexeme) _ scanned
  refine ⟨again, ?_, alike⟩
  rw [scan_cons read, scanned']
  simp [Except.map, onto, empty]

theorem blanks {gap : List Char} (blank : ∀ c ∈ gap, isGapBlank c = true)
    (h : Rescans text text') : Rescans text (gap ++ text') := by
  induction gap with
  | nil => exact h
  | cons c gap ih =>
    have read : first c (gap ++ text') = .ok (some ⟨none, [c], gap ++ text'⟩) :=
      if_pos (blank c (by simp))
    exact skip read rfl (ih fun d member => blank d (List.mem_cons_of_mem c member))

end Rescans

end TokenStream

end ResponseShape
