import ResponseShape.Proofs.Accepted
import ResponseShape.Proofs.OpenTag

/-! Comments that may stand anywhere between two segments of a source. A line comment goes with its
line break, and a block comment does not begin with a star: one that does may be read as the
documentation of a class. Main statement: `SourceFile.ofText_insertion`. -/
namespace ResponseShape

/-- The comments that no parser sees. -/
inductive IsComment : List Char → Prop
  | slashes {body : List Char} (line : '\n' ∉ body) : IsComment ('/' :: '/' :: body ++ ['\n'])
  | hash {body : List Char} (line : '\n' ∉ body) (noAttribute : body.head? ≠ some '[') :
      IsComment ('#' :: body ++ ['\n'])
  | block {body : List Char} (unclosed : ¬['*', '/'] <:+: body) (plain : body.head? ≠ some '*') :
      IsComment ('/' :: '*' :: body ++ ['*', '/'])

/-- A comment, set off from what is in front of it. -/
structure Insertion where
  gap : List Char
  comment : List Char
  behind : List Char
  gap_ne_nil : gap ≠ []
  gap_blank : ∀ c ∈ gap, Segment.isGapBlank c = true
  isComment : IsComment comment
  behind_blank : ∀ c ∈ behind, Segment.isGapBlank c = true

def Insertion.text (i : Insertion) : List Char := i.gap ++ (i.comment ++ i.behind)

/-- `after` is what follows a segment of a text. The one exception is a line comment: what is
inserted behind it, in front of its line break, would become a part of it. -/
inductive Boundary : List Char → List Char → Prop
  | here {c : Char} {rest : List Char} {s : Segment} (read : Segment.first c rest = .ok (some s))
      (apart : ¬s.IsLineComment) : Boundary (c :: rest) s.rest
  | later {c : Char} {rest after : List Char} {s : Segment}
      (read : Segment.first c rest = .ok (some s)) (boundary : Boundary s.rest after) :
      Boundary (c :: rest) after

theorem Boundary.exists_front {text after : List Char} (h : Boundary text after) :
    ∃ front, front ≠ [] ∧ front ++ after = text := by
  induction h with
  | here read _ =>
    obtain ⟨covers, some⟩ := Segment.first_covers read
    exact ⟨_, some, covers⟩
  | @later c rest after s read _ ih =>
    obtain ⟨covers, some⟩ := Segment.first_covers read
    obtain ⟨front, -, split⟩ := ih
    exact ⟨s.lexeme ++ front, by simp [some], by rw [List.append_assoc, split, covers]⟩

namespace TokenStream

open Segment

theorem commentEnd?_of_unclosed {body : List Char} (unclosed : ¬['*', '/'] <:+: body)
    (rest : List Char) :
    commentEnd? (body ++ '*' :: '/' :: rest) = some (body ++ ['*', '/'], rest) := by
  induction body with
  | nil => rfl
  | cons c body ih =>
    have later := ih fun inside => unclosed (List.infix_cons inside)
    cases body with
    | nil =>
      simp [commentEnd?]
    | cons d body =>
      have goesOn : ¬(c = '*' ∧ d = '/') := by
        rintro ⟨rfl, rfl⟩
        exact unclosed ⟨[], body, rfl⟩
      rw [List.cons_append] at later
      simp [commentEnd?, goesOn, later]

theorem run_line {line : List Char} (noBreak : '\n' ∉ line) (rest : List Char) :
    run (· ≠ '\n') (fun _ => none) (line ++ '\n' :: rest) = ⟨none, line, '\n' :: rest⟩ := by
  have inside : ∀ c ∈ line, decide (c ≠ '\n') = true := fun c member =>
    decide_eq_true fun ends => noBreak (ends ▸ member)
  unfold run
  rw [List.takeWhile_append_of_pos inside, List.dropWhile_append_of_pos inside]
  simp

theorem first_slashes (text : List Char) :
    first '/' ('/' :: text) = .ok (some (run (· ≠ '\n') (fun _ => none) ('/' :: '/' :: text))) :=
  rfl

theorem first_hash {text : List Char} (noAttribute : text.head? ≠ some '[') :
    first '#' text = .ok (some (run (· ≠ '\n') (fun _ => none) ('#' :: text))) :=
  (Opening.hash noAttribute).first_eq

theorem first_block {text body rest : List Char} (ends : commentEnd? text = some (body, rest))
    (noDoc : ¬(body.head? = some '*' ∧ body ≠ ['*', '/'])) :
    first '/' ('*' :: text) = .ok (some ⟨none, '/' :: '*' :: body, rest⟩) := by
  have read : blockComment? text = some ⟨none, '/' :: '*' :: body, rest⟩ := by
    simp only [blockComment?, ends, Option.map_some, if_neg noDoc]
  exact (Opening.block read).first_eq

theorem Rescans.comment {text text' comment : List Char} (isComment : IsComment comment)
    (h : Rescans text text') : Rescans text (comment ++ text') := by
  have nextLine : Rescans text ('\n' :: text') := blanks (List.forall_mem_singleton.2 rfl) h
  cases isComment with
  | @slashes body line =>
    have noBreak : '\n' ∉ '/' :: '/' :: body := by simp [line]
    have read := first_slashes (body ++ '\n' :: text')
    rw [← List.cons_append, ← List.cons_append, run_line noBreak] at read
    rw [List.append_assoc]
    exact skip read rfl nextLine
  | @hash body line noAttribute =>
    have noBreak : '\n' ∉ '#' :: body := by simp [line]
    have other : (body ++ '\n' :: text').head? ≠ some '[' := by
      cases body with
      | nil => simp
      | cons c body => exact noAttribute
    have read := first_hash other
    rw [← List.cons_append, run_line noBreak] at read
    rw [List.append_assoc]
    exact skip read rfl nextLine
  | @block body unclosed plain =>
    have noDoc : ¬((body ++ ['*', '/']).head? = some '*' ∧ body ++ ['*', '/'] ≠ ['*', '/']) := by
      cases body with
      | nil => simp
      | cons c body => exact fun doc => plain doc.1
    have read := first_block (commentEnd?_of_unclosed unclosed text') noDoc
    rw [List.append_assoc]
    exact skip read rfl h

theorem Rescans.insertion (i : Insertion) (text : List Char) : Rescans text (i.text ++ text) := by
  unfold Insertion.text
  rw [List.append_assoc, List.append_assoc]
  exact blanks i.gap_blank (comment i.isComment (blanks i.behind_blank (refl text)))

/-- What is inserted behind a segment leaves the segment as it is. -/
theorem Rescans.behind (i : Insertion) {c : Char} {rest mid after : List Char} {s : Segment}
    (read : first c rest = .ok (some s)) (left : s.rest = mid ++ after)
    (apart : s.IsLineComment → mid ≠ []) (h : Rescans s.rest (mid ++ (i.text ++ after))) :
    Rescans (c :: rest) (s.lexeme ++ (mid ++ (i.text ++ after))) := by
  obtain ⟨blank, gap, shape⟩ := List.exists_cons_of_ne_nil i.gap_ne_nil
  obtain ⟨covers, some⟩ := first_covers read
  obtain ⟨word, lexeme⟩ := exists_cons covers some
  have known : rest = (word ++ mid) ++ after := by
    rw [left, lexeme] at covers
    simpa using (List.cons.inj covers).2.symm
  subst known
  have inserted : i.text ++ after = blank :: (gap ++ i.comment ++ i.behind ++ after) := by
    simp [Insertion.text, shape]
  have read' := first_apart (gap ++ i.comment ++ i.behind ++ after)
    (i.gap_blank blank (by simp [shape])) read (by simp [lexeme]) fun line => .inr (apart line)
  rw [← inserted, List.append_assoc] at read'
  rw [lexeme]
  exact segment read read' h

theorem Rescans.of_boundary (i : Insertion) {text after front : List Char}
    (boundary : Boundary text after) (split : front ++ after = text) :
    Rescans text (front ++ (i.text ++ after)) := by
  induction boundary generalizing front with
  | @here c rest s read apart =>
    obtain ⟨covers, -⟩ := first_covers read
    obtain rfl : front = s.lexeme := List.append_cancel_right (split.trans covers.symm)
    exact behind i read (List.nil_append _).symm (fun line => absurd line apart)
      (insertion i s.rest)
  | @later c rest after s read boundary ih =>
    obtain ⟨covers, -⟩ := first_covers read
    obtain ⟨mid, some, left⟩ := boundary.exists_front
    obtain rfl : front = s.lexeme ++ mid := by
      refine List.append_cancel_right (split.trans ?_)
      rw [List.append_assoc, left, covers]
    rw [List.append_assoc]
    exact behind i read left.symm (fun _ => some) (ih left)

theorem isBlank_of_gapBlank {c : Char} (h : isGapBlank c = true) : Text.isBlank c = true := by
  rcases isGapBlank_iff.1 h with rfl | rfl | rfl | rfl <;> decide

theorem tag_not_comment {comment rest : List Char} (isComment : IsComment comment) :
    ¬openTag <+: (comment ++ rest).dropWhile Text.isBlank := by
  have slash : Text.isBlank '/' = false := by decide
  have hash : Text.isBlank '#' = false := by decide
  cases isComment <;> simp [openTag, slash, hash]

theorem tag_in_front {text front after mid : List Char} (split : front ++ after = text)
    (left : mid ++ after = text.drop (openTagLength text)) (some : mid ≠ [])
    (tagged : openTag <+: text.dropWhile Text.isBlank) :
    text.takeWhile Text.isBlank ++ openTag <+: front := by
  have blank : ∀ c ∈ text.takeWhile Text.isBlank, Text.isBlank c = true := fun c =>
    List.mem_takeWhile_imp
  have opens : text.takeWhile Text.isBlank ++ openTag <+: text := by
    conv => rhs; rw [← List.takeWhile_append_dropWhile (p := Text.isBlank) (l := text)]
    exact (List.prefix_append_right_inj _).2 tagged
  have taken : (text.takeWhile Text.isBlank ++ openTag).length ≤ openTagLength text := by
    have bytes := length_le_utf8ByteSize (text.takeWhile Text.isBlank)
    rw [List.length_append, openTagLength, if_pos (List.isPrefixOf_iff_prefix.2 tagged)]
    omega
  refine List.prefix_of_prefix_length_le opens ⟨after, split⟩ ?_
  have lengths := congrArg List.length left
  have whole := congrArg List.length split
  have := List.length_pos_iff.2 some
  simp only [List.length_append, List.length_drop] at lengths whole taken ⊢
  omega

theorem openTagLength_insertion (i : Insertion) {front after : List Char}
    (boundary : Boundary ((front ++ after).drop (openTagLength (front ++ after))) after) :
    openTagLength (front ++ (i.text ++ after)) = openTagLength (front ++ after) := by
  obtain ⟨mid, some, left⟩ := boundary.exists_front
  obtain ⟨blank, gap, shape⟩ := List.exists_cons_of_ne_nil i.gap_ne_nil
  by_cases tagged : openTag <+: (front ++ after).dropWhile Text.isBlank
  · obtain ⟨more, opens⟩ := tag_in_front rfl left some tagged
    have blanks : ∀ c ∈ (front ++ after).takeWhile Text.isBlank, Text.isBlank c = true := fun c =>
      List.mem_takeWhile_imp
    generalize (front ++ after).takeWhile Text.isBlank = word at opens blanks
    subst opens
    rw [List.append_assoc, openTagLength_tagged blanks, List.append_assoc,
      openTagLength_tagged blanks]
  · rw [openTagLength_untagged tagged]
    refine openTagLength_untagged fun tagged' => ?_
    rw [List.dropWhile_append] at tagged tagged'
    split_ifs at tagged tagged' with all
    · have gapBlank := fun c member => isBlank_of_gapBlank (i.gap_blank c member)
      rw [Insertion.text, List.append_assoc, List.dropWhile_append_of_pos gapBlank,
        List.append_assoc] at tagged'
      exact tag_not_comment i.isComment tagged'
    · have noBlank : ∀ c ∈ openTag, c ≠ blank := by
        have b := i.gap_blank blank (by simp [shape])
        have noGap : (openTag.all fun c => !isGapBlank c) = true := by decide
        intro c member
        exact ne_of_gapBlank b (by simpa using List.all_eq_true.1 noGap c member)
      rw [Insertion.text, shape] at tagged'
      exact tagged ((prefix_known noBlank tagged').trans (List.prefix_append _ after))

theorem ofText_alike_insertion (i : Insertion) {source : String} {s : TokenStream}
    (read : ofText source = .ok s) {front after : List Char}
    (split : source.toList = front ++ after)
    (boundary : Boundary (source.toList.drop (openTagLength source.toList)) after) :
    ∃ s', ofText (String.ofList (front ++ (i.text ++ after))) = .ok s' ∧ s.Alike s' := by
  obtain ⟨mid, some, left⟩ := boundary.exists_front
  unfold ofText at read ⊢
  dsimp only at read ⊢
  rw [String.toList_ofList]
  rw [split] at read boundary left
  rw [openTagLength_insertion i boundary]
  generalize openTagLength (front ++ after) = n at read boundary left ⊢
  have tag : n ≤ front.length := by
    have lengths := congrArg List.length left
    have := List.length_pos_iff.2 some
    simp only [List.length_append, List.length_drop] at lengths
    omega
  rw [List.drop_append_of_le_length tag] at read boundary ⊢
  exact Rescans.of_boundary i boundary rfl _ _ _ read

end TokenStream

/-- A comment at a boundary of an accepted source changes nothing. -/
theorem SourceFile.ofText_insertion {source : String} {f : SourceFile}
    (accepted : SourceFile.ofText source = .ok f) (i : Insertion) {front after : List Char}
    (split : source.toList = front ++ after)
    (boundary : Boundary (source.toList.drop (TokenStream.openTagLength source.toList)) after) :
    SourceFile.ofText (String.ofList (front ++ (i.text ++ after))) = .ok f := by
  obtain ⟨s, rest, read, parsed⟩ := SourceFile.ofText_ok_iff.1 accepted
  obtain ⟨s', read', alike⟩ := TokenStream.ofText_alike_insertion i read split boundary
  obtain ⟨rest', parsed', -⟩ := (Grammar.sourceFile_together alike).answer parsed
  exact SourceFile.ofText_ok_iff.2 ⟨s', rest', read', parsed'⟩

def besideName : Insertion where
  gap := [' ']
  comment := '/' :: '*' :: " the user ".toList ++ ['*', '/']
  behind := []
  gap_ne_nil := by simp
  gap_blank := List.forall_mem_singleton.2 rfl
  isComment := .block (by decide) (by decide)
  behind_blank := by simp

theorem SourceFile.ofText_insertion_besideName :
    SourceFile.ofText
        (String.ofList ("<?php class".toList ++ (besideName.text ++ " R { }".toList))) =
      .ok ⟨none, [], [⟨"R", none, none, [], []⟩]⟩ := by
  have blank : Segment.first ' ' "class R { }".toList =
      .ok (some ⟨none, [' '], "class R { }".toList⟩) := rfl
  have word : Segment.first 'c' "lass R { }".toList =
      .ok (some ⟨some (.keyword .kwClass), "class".toList, " R { }".toList⟩) := by
    with_unfolding_all rfl
  have accepted : SourceFile.ofText "<?php class R { }" =
      .ok ⟨none, [], [⟨"R", none, none, [], []⟩]⟩ := by
    with_unfolding_all rfl
  exact SourceFile.ofText_insertion accepted besideName rfl
    (.later blank (.here word fun line => nomatch line.1))

/-- A comment that begins with a second star can be the whole branch of a condition: what stood
there is read as the next statement. -/
theorem SourceFile.documentation_is_branch :
    SourceFile.ofText "<?php class R { function f($x) { if ($x) return true; } }" =
        .ok ⟨none, [], [⟨"R", none, none, [], [⟨"f", ["x"], some
          [.branch (.var "x") [.ret (some (.bool true))] [] none]⟩]⟩]⟩ ∧
      SourceFile.ofText "<?php class R { function f($x) { if ($x) /** d */ return true; } }" =
        .ok ⟨none, [], [⟨"R", none, none, [], [⟨"f", ["x"], some
          [.branch (.var "x") [] [] none, .ret (some (.bool true))]⟩]⟩]⟩ :=
  ⟨by with_unfolding_all rfl, by with_unfolding_all rfl⟩

end ResponseShape
