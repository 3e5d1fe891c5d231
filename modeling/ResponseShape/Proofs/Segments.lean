import Mathlib.Data.List.Infix
import Mathlib.Data.List.TakeWhile
import ResponseShape.Token.Stream

/-! A segment that ends in a text is read from that text alone: what stands behind it may be changed
for anything that begins with a blank. Main statement: `Segment.first_apart`. -/
namespace ResponseShape.Segment

def IsLineComment (s : Segment) : Prop :=
  s.kind = none ∧ (['/', '/'] <+: s.lexeme ∨ ['#'] <+: s.lexeme)

theorem isGapBlank_iff {c : Char} :
    isGapBlank c = true ↔ c = ' ' ∨ c = '\t' ∨ c = '\r' ∨ c = '\n' := by
  simp [isGapBlank, or_assoc]

section Apart

-- `known` is the common part of two texts: `after` follows it in one, a blank and `tail` in the
-- other. What a reader leaves of `known` is `mid`.
variable {known mid after tail : List Char} {blank : Char}

theorem head_known {c : Char} (h : (known ++ blank :: tail).head? = some c) (other : c ≠ blank) :
    known.head? = some c := by
  cases known with
  | nil => exact absurd (by simpa using h.symm) other
  | cons d rest => exact h

theorem head_old {c : Char} (h : known.head? = some c) : (known ++ after).head? = some c := by
  cases known with
  | nil => cases h
  | cons d rest => exact h

theorem prefix_known {word : List Char} (noBlank : ∀ c ∈ word, c ≠ blank)
    (opens : word <+: known ++ blank :: tail) : word <+: known := by
  rcases List.prefix_or_prefix_of_prefix opens (List.prefix_append known _) with h | ⟨more, rfl⟩
  · exact h
  · rw [List.prefix_append_right_inj] at opens
    cases more with
    | nil => simp
    | cons c more =>
      obtain ⟨rfl, -⟩ := List.cons_prefix_cons.1 opens
      exact absurd rfl (noBlank c (by simp))

theorem takeWhile_apart (tail : List Char) {p : Char → Bool}
    (ends : (known ++ after).takeWhile p ++ mid = known) (stops : p blank = false ∨ mid ≠ []) :
    (known ++ blank :: tail).takeWhile p = (known ++ after).takeWhile p ∧
      (known ++ blank :: tail).dropWhile p = mid ++ blank :: tail := by
  have left : (known ++ after).dropWhile p = mid ++ after := by
    have all := List.takeWhile_append_dropWhile (p := p) (l := known ++ after)
    conv at all => rhs; rw [← ends, List.append_assoc]
    exact List.append_cancel_left all
  have stopped : ∀ c, (mid ++ blank :: tail).head? = some c → p c = false := by
    intro c head
    cases mid with
    | nil =>
      rcases stops with h | h
      · simpa [← Option.some_inj.1 head] using h
      · exact absurd rfl h
    | cons d mid =>
      have h := List.head?_dropWhile_not p (known ++ after)
      rw [left] at h
      simpa [← Option.some_inj.1 head] using h
  have taken : ∀ c ∈ (known ++ after).takeWhile p, p c = true := fun c => List.mem_takeWhile_imp
  generalize (known ++ after).takeWhile p = word at ends taken
  subst ends
  rw [List.append_assoc, List.takeWhile_append_of_pos taken, List.dropWhile_append_of_pos taken]
  cases h : mid ++ blank :: tail with
  | nil => simp at h
  | cons c rest => simp [stopped c (by rw [h]; rfl)]

theorem run_apart {p : Char → Bool} {kind : List Char → Option TokenKind}
    (ends : (run p kind (known ++ after)).lexeme ++ mid = known)
    (stops : p blank = false ∨ mid ≠ []) :
    run p kind (known ++ blank :: tail) =
      { run p kind (known ++ after) with rest := mid ++ blank :: tail } := by
  obtain ⟨taken, left⟩ := takeWhile_apart tail ends stops
  simp only [run, taken, left]

theorem run_apart_cons {p : Char → Bool} {kind : List Char → Option TokenKind} {c : Char}
    (ends : (run p kind (c :: (known ++ after))).lexeme ++ mid = c :: known)
    (stops : p blank = false ∨ mid ≠ []) :
    run p kind (c :: (known ++ blank :: tail)) =
      { run p kind (c :: (known ++ after)) with rest := mid ++ blank :: tail } := by
  rw [← List.cons_append] at ends ⊢
  exact run_apart ends stops

theorem numberRun_ne_nil {pointed : Bool} {text : List Char}
    (digit : (text.head?.any Char.isDigit) = true) : (numberRun pointed text).1 ≠ [] := by
  cases text with
  | nil => cases digit
  | cons c rest =>
    have isDigit : c.isDigit = true := digit
    simp [numberRun, isDigit]

theorem numberRun_apart (tail : List Char) {pointed : Bool} (b : isGapBlank blank = true)
    (ends : (numberRun pointed (known ++ after)).1 ++ mid = known) :
    numberRun pointed (known ++ blank :: tail) =
      ((numberRun pointed (known ++ after)).1, mid ++ blank :: tail) := by
  have noDigit : blank.isDigit = false ∧ blank ≠ '_' ∧ blank ≠ '.' := by
    rcases isGapBlank_iff.1 b with rfl | rfl | rfl | rfl <;> decide
  induction known generalizing pointed with
  | nil =>
    obtain ⟨none, rfl⟩ := List.append_eq_nil_iff.1 ends
    rw [List.nil_append] at none
    simp [numberRun, noDigit, none]
  | cons c known ih =>
    have digitKnown : ((known ++ blank :: tail).head?.any Char.isDigit) = true →
        ((known ++ after).head?.any Char.isDigit) = true := by
      cases known <;> simp [noDigit.1]
    simp only [List.cons_append, numberRun] at ends ⊢
    split_ifs at ends ⊢ with digit point point' point'
    · rw [ih (List.cons.inj ends).2]
    · rw [ih (List.cons.inj ends).2]
    · exact absurd ⟨point.1, point.2.1, digitKnown point.2.2⟩ point'
    · -- the point is a part of the number, so the digit behind it is a known one
      obtain ⟨d, known, rfl⟩ : ∃ d k, known = d :: k := by
        cases known with
        | nil =>
          have none := (List.append_eq_nil_iff.1 (List.cons.inj ends).2).1
          exact absurd none (numberRun_ne_nil point'.2.2)
        | cons d known => exact ⟨d, known, rfl⟩
      exact absurd ⟨point'.1, point'.2.1, by simpa using point'.2.2⟩ point
    · subst ends
      simp

theorem exists_cons {c : Char} {taken rest text : List Char} (covers : taken ++ rest = c :: text)
    (some : taken ≠ []) : ∃ more, taken = c :: more := by
  cases taken with
  | nil => exact absurd rfl some
  | cons d more => exact ⟨more, by rw [(List.cons.inj covers).1]⟩

theorem exists_cons_of_read {α : Type} {read : List Char → Option α} {c : Char}
    {taken rest text : List Char} {a : α} (nothing : read [] = none)
    (covers : taken ++ rest = c :: text) (again : read (taken ++ []) = some a) :
    ∃ more, taken = c :: more := by
  refine exists_cons covers ?_
  rintro rfl
  rw [List.append_nil, nothing] at again
  cases again

theorem commentEnd?_apart {text body rest : List Char} (h : commentEnd? text = some (body, rest))
    (other : List Char) : commentEnd? (body ++ other) = some (body, other) := by
  fun_induction commentEnd? text generalizing body rest other with
  | case1 => cases h
  | case2 => cases h
  | case3 c d tail ends =>
    cases h
    simp [commentEnd?, ends]
  | case4 c d tail goesOn ih =>
    obtain ⟨⟨b, r⟩, later, same⟩ := Option.map_eq_some_iff.1 h
    cases same
    obtain ⟨b, rfl⟩ := exists_cons_of_read rfl (commentEnd?_covers later) (ih later [])
    have next := ih later other
    rw [List.cons_append] at next
    simp [commentEnd?, goesOn, next]

theorem singleQuoted?_apart {text : List Char} {q : Quoted} (h : singleQuoted? text = some q)
    (other : List Char) : singleQuoted? (q.text ++ other) = some { q with rest := other } := by
  fun_induction singleQuoted? text generalizing q other with
  | case1 => cases h
  | case2 =>
    cases h
    cases other <;> simp [singleQuoted?]
  | case3 => cases h
  | case4 c _ d tail escaped ih =>
    obtain ⟨q', later, rfl⟩ := Option.map_eq_some_iff.1 h
    simp [Quoted.cons, singleQuoted?, escaped, ih later other]
  | case5 c notQuote d tail plain ih =>
    obtain ⟨q', later, rfl⟩ := Option.map_eq_some_iff.1 h
    obtain ⟨more, shape⟩ := exists_cons_of_read rfl (singleQuoted?_covers later) (ih later [])
    have next := ih later other
    rw [shape, List.cons_append] at next
    simp [Quoted.cons, singleQuoted?, notQuote, plain, shape, next]

theorem doubleQuoted?_apart {text : List Char} {q : Quoted} (h : doubleQuoted? text = some q)
    (other : List Char) : doubleQuoted? (q.text ++ other) = some { q with rest := other } := by
  fun_induction doubleQuoted? text generalizing q other with
  | case1 => cases h
  | case2 =>
    cases h
    cases other <;> simp [doubleQuoted?]
  | case3 => cases h
  | case4 d tail _ ih =>
    obtain ⟨q', later, rfl⟩ := Option.map_eq_some_iff.1 h
    simp [Quoted.cons, doubleQuoted?, ih later other]
  | case5 c notQuote d tail plain ih =>
    obtain ⟨q', later, rfl⟩ := Option.map_eq_some_iff.1 h
    obtain ⟨more, shape⟩ := exists_cons_of_read rfl (doubleQuoted?_covers later) (ih later [])
    have next := ih later other
    rw [shape, List.cons_append] at next
    simp [Quoted.cons, doubleQuoted?, notQuote, plain, shape, next]

theorem spelling_noBlank {spelling : String} {s : Symbol}
    (member : (spelling, s) ∈ Symbol.spellings) :
    ∀ c ∈ spelling.toList, isGapBlank c = false := by
  have all : ∀ e ∈ Symbol.spellings, (e.1.toList.all fun c => !isGapBlank c) = true := by
    decide +kernel
  intro c inside
  simpa using List.all_eq_true.1 (all _ member) c inside

theorem ne_of_gapBlank {c : Char} (b : isGapBlank blank = true) (h : isGapBlank c = false) :
    c ≠ blank := by
  rintro rfl
  rw [b] at h
  cases h

theorem symbol?_apart (b : isGapBlank blank = true) {s : Segment}
    (h : symbol? (known ++ after) = some s) (ends : s.lexeme ++ mid = known) :
    symbol? (known ++ blank :: tail) = some { s with rest := mid ++ blank :: tail } := by
  unfold symbol? at h ⊢
  obtain ⟨before, ⟨spelling, sym⟩, behind, split, found, missed⟩ := List.findSome?_eq_some_iff.1 h
  refine List.findSome?_eq_some_iff.2 ⟨before, ⟨spelling, sym⟩, behind, split, ?_, ?_⟩
  · dsimp only at found ⊢
    split_ifs at found
    cases found
    have ends : spelling.toList ++ mid = known := ends
    simp [← ends]
  · rintro ⟨other, otherSym⟩ member
    have old := missed _ member
    dsimp only at old ⊢
    split_ifs at old with opens
    have listed : (other, otherSym) ∈ Symbol.spellings := by simp [split, member]
    refine if_neg fun opens' => opens ?_
    rw [List.isPrefixOf_iff_prefix] at opens' ⊢
    have noBlank := fun c mem => ne_of_gapBlank b (spelling_noBlank listed c mem)
    exact (prefix_known noBlank opens').trans (List.prefix_append known after)

theorem quoted_apart {quote c : Char} {read : List Char → Option Quoted} {s : Segment}
    (readApart : ∀ q, read (known ++ after) = some q →
      ∀ other, read (q.text ++ other) = some { q with rest := other })
    (h : quoted quote read (known ++ after) = .ok (some s)) (ends : s.lexeme ++ mid = c :: known) :
    quoted quote read (known ++ blank :: tail) =
      .ok (some { s with rest := mid ++ blank :: tail }) := by
  unfold quoted at h
  split at h
  · cases h
  · next q hq =>
    cases h
    have known_eq : q.text ++ mid = known := (List.cons.inj ends).2
    have again := readApart q hq (mid ++ blank :: tail)
    rw [← List.append_assoc, known_eq] at again
    simp only [quoted, again, stringKind]

theorem second_known {c d : Char} {lexeme : List Char} (opens : [c, d] <+: lexeme)
    (ends : lexeme ++ mid = c :: known) : ∃ more, known = d :: more := by
  obtain ⟨more, rfl⟩ := opens
  exact ⟨more ++ mid, (List.cons.inj ends).2.symm⟩

theorem blockComment?_opens {text : List Char} {s : Segment} (h : blockComment? text = some s) :
    ['/', '*'] <+: s.lexeme := by
  obtain ⟨_, _, rfl⟩ := Option.map_eq_some_iff.1 h
  simp

theorem blockComment?_apart (tail : List Char) {s : Segment}
    (h : blockComment? (known ++ after) = some s) (ends : s.lexeme ++ mid = '/' :: '*' :: known) :
    blockComment? (known ++ tail) = some { s with rest := mid ++ tail } := by
  obtain ⟨⟨body, rest⟩, read, rfl⟩ := Option.map_eq_some_iff.1 h
  obtain rfl : body ++ mid = known := by simpa using ends
  rw [List.append_assoc, blockComment?, commentEnd?_apart read]
  rfl

theorem isNameChar_of_blank (b : isGapBlank blank = true) : isNameChar blank = false := by
  rcases isGapBlank_iff.1 b with rfl | rfl | rfl | rfl <;> decide

theorem Unmarked.apart {c : Char} (tail : List Char) (b : isGapBlank blank = true)
    (h : Unmarked c (known ++ after).head?) : Unmarked c (known ++ blank :: tail).head? := by
  have seen : ∀ d, isGapBlank d = false → (known ++ blank :: tail).head? = some d →
      (known ++ after).head? = some d := fun d other head =>
    head_old (head_known head (ne_of_gapBlank b other))
  exact {
    noBlank := h.noBlank
    noSlashes := fun here => h.noSlashes (here.imp_right (seen _ rfl))
    noHash := h.noHash
    noBlock := fun here => h.noBlock (here.imp_right (seen _ rfl))
    noClosing := fun here => h.noClosing (here.imp_right (seen _ rfl))
    noDollar := h.noDollar
    noSingle := h.noSingle
    noDouble := h.noDouble }

/-- A segment is read again where a blank stands behind what is known. A line comment ends in front
of a line break only. -/
theorem first_apart (tail : List Char) {c : Char} {s : Segment} (b : isGapBlank blank = true)
    (h : first c (known ++ after) = .ok (some s)) (ends : s.lexeme ++ mid = c :: known)
    (apart : IsLineComment s → blank = '\n' ∨ mid ≠ []) :
    first c (known ++ blank :: tail) = .ok (some { s with rest := mid ++ blank :: tail }) := by
  have lineEnds : IsLineComment s → decide (blank ≠ '\n') = false ∨ mid ≠ [] := fun line =>
    (apart line).imp_left fun ends => by simp [ends]
  refine Opening.first_eq ?_
  generalize whole : known ++ after = text at h
  cases Opening.of_first h with
  | blank isBlank =>
    obtain rfl : mid = known := (List.cons.inj ends).2
    exact .blank isBlank
  | slashes rest =>
    have opens : ['/', '/'] <+: (run (· ≠ '\n') (fun _ => none) ('/' :: '/' :: rest)).lexeme := by
      simp [run]
    obtain ⟨known, rfl⟩ := second_known opens ends
    obtain rfl := (List.cons.inj whole).2
    have read := Opening.slashes (known ++ blank :: tail)
    rwa [← List.cons_append, run_apart_cons ends (lineEnds ⟨rfl, .inl opens⟩)] at read
  | «attribute» rest =>
    obtain rfl : '[' :: mid = known := (List.cons.inj ends).2
    exact .«attribute» _
  | hash noAttribute =>
    subst whole
    have opens : ['#'] <+: (run (· ≠ '\n') (fun _ => none) ('#' :: (known ++ after))).lexeme := by
      simp [run]
    have read : Opening '#' (known ++ blank :: tail) _ := .hash fun head =>
      noAttribute (head_old (head_known head (ne_of_gapBlank b rfl)))
    rwa [run_apart_cons ends (lineEnds ⟨rfl, .inr opens⟩)] at read
  | block found =>
    obtain ⟨known, rfl⟩ := second_known (blockComment?_opens found) ends
    obtain rfl := (List.cons.inj whole).2
    exact .block (blockComment?_apart (blank :: tail) found ends)
  | «variable» named =>
    subst whole
    obtain ⟨taken, left⟩ := takeWhile_apart tail (List.cons.inj ends).2
      (.inl (isNameChar_of_blank b))
    have read : Opening '$' (known ++ blank :: tail) _ := .«variable» (taken ▸ named)
    rwa [taken, left] at read
  | single read =>
    subst whole
    exact .single (quoted_apart (fun _ => singleQuoted?_apart) read ends)
  | double read =>
    subst whole
    exact .double (quoted_apart (fun _ => doubleQuoted?_apart) read ends)
  | number unmarked digit =>
    subst whole
    have ends : (numberRun false ((c :: known) ++ after)).1 ++ mid = c :: known := ends
    have same := numberRun_apart tail b ends
    have read := Opening.number (unmarked.apart tail b) digit
    rwa [number, ← List.cons_append, same] at read
  | word unmarked noDigit name =>
    subst whole
    have stops : (isNameChar blank || blank = '\\') = false := by
      rcases isGapBlank_iff.1 b with rfl | rfl | rfl | rfl <;> decide
    have read := Opening.word (unmarked.apart tail b) noDigit name
    rwa [word, run_apart_cons ends (.inl stops)] at read
  | symbol unmarked noDigit noName found =>
    subst whole
    refine .symbol (unmarked.apart tail b) noDigit noName ?_
    exact symbol?_apart b found ends

end Apart

end ResponseShape.Segment
