import ResponseShape.Proofs.Together

/-! Token lists in which every group is closed by a delimiter of its own. A scan that counts some of
the delimiters passes over them and stops where the group around them ends. Main statements:
`NestedWith.counted`, `NestedWith.afterSemicolon?_append`, `NestedWith.everyGroupClosed`. -/
namespace ResponseShape

open ResponseShape.Parser

/-- Every group in the tokens is closed by a delimiter of its own, and the kinds of the tokens
outside all groups are as `bare` says. -/
inductive NestedWith : (TokenKind → Prop) → List Token → Prop
  | nil {bare : TokenKind → Prop} : NestedWith bare []
  | plain {bare : TokenKind → Prop} {t : Token} {ts : List Token} :
      t.kind.isPlain → bare t.kind → NestedWith bare ts → NestedWith bare (t :: ts)
  | group {bare : TokenKind → Prop} {t t' : Token} {c : Symbol} {inner ts : List Token} :
      t.kind.closing? = some c → NestedWith (fun _ => True) inner → t'.kind = .symbol c →
      NestedWith bare ts → NestedWith bare (t :: (inner ++ t' :: ts))

/-- Every group in the tokens is closed by a delimiter of its own. -/
abbrev WellNested : List Token → Prop := NestedWith fun _ => True

/-- Of each pair of delimiters both are counted or neither is. -/
structure CountsPairs (opens closes : TokenKind → Bool) : Prop where
  plain : ∀ k : TokenKind, k.isPlain = true → opens k = false ∧ closes k = false
  opening : ∀ (k : TokenKind) (c : Symbol), k.closing? = some c →
    closes k = false ∧ opens k = closes (.symbol c)
  closing : ∀ (k : TokenKind) (c : Symbol), k.closing? = some c → opens (.symbol c) = false

theorem CountsPairs.ofSymbols {opens closes : TokenKind → Bool}
    (others : ∀ k, (∀ s, k ≠ .symbol s) → opens k = false ∧ closes k = false)
    (plain : ∀ s, (TokenKind.symbol s).isPlain = true →
      opens (.symbol s) = false ∧ closes (.symbol s) = false)
    (pairs : ∀ s c, (TokenKind.symbol s).closing? = some c →
      closes (.symbol s) = false ∧ opens (.symbol s) = closes (.symbol c) ∧
        opens (.symbol c) = false) :
    CountsPairs opens closes where
  plain k h := by
    cases k with
    | symbol s => exact plain s h
    | _ => exact others _ nofun
  opening k c h := by
    cases k with
    | symbol s => exact ⟨(pairs s c h).1, (pairs s c h).2.1⟩
    | _ => cases h
  closing k c h := by
    cases k with
    | symbol s => exact (pairs s c h).2.2
    | _ => cases h

theorem countsPairs_parens :
    CountsPairs (· == .symbol .leftParen) (· == .symbol .rightParen) := by
  refine .ofSymbols (fun k other => ?_) (fun s => ?_) fun s c pair => ?_
  · exact ⟨beq_false_of_ne (other _), beq_false_of_ne (other _)⟩
  · cases s <;> decide
  · cases s <;> cases pair <;> decide

theorem countsPairs_braces :
    CountsPairs (· == .symbol .leftBrace) (· == .symbol .rightBrace) := by
  refine .ofSymbols (fun k other => ?_) (fun s => ?_) fun s c pair => ?_
  · exact ⟨beq_false_of_ne (other _), beq_false_of_ne (other _)⟩
  · cases s <;> decide
  · cases s <;> cases pair <;> decide

theorem countsPairs_brackets : CountsPairs opensBracket (· == .symbol .rightBracket) := by
  refine .ofSymbols (fun k other => ?_) (fun s => ?_) fun s c pair => ?_
  · simp only [opensBracket, beq_false_of_ne (other _), Bool.or_self, and_self]
  · cases s <;> decide
  · cases s <;> cases pair <;> decide

theorem countsPairs_parameters :
    CountsPairs (fun k => k == .symbol .leftParen || opensBracket k)
      (fun k => k == .symbol .rightParen || k == .symbol .rightBracket) := by
  refine .ofSymbols (fun k other => ?_) (fun s => ?_) fun s c pair => ?_
  · simp only [opensBracket, beq_false_of_ne (other _), Bool.or_self, and_self]
  · cases s <;> decide
  · cases s <;> cases pair <;> decide

theorem countsPairs_levels : CountsPairs opensLevel closesLevel := by
  refine .ofSymbols (fun k other => ?_) (fun s => ?_) fun s c pair => ?_
  · simp only [opensLevel, closesLevel, opensBracket, beq_false_of_ne (other _), Bool.or_self,
      and_self]
  · cases s <;> decide
  · cases s <;> cases pair <;> decide

theorem closing?_eq_none {k : TokenKind} {c : Symbol} (h : k.closing? = some c) :
    (TokenKind.symbol c).closing? = none := by
  unfold TokenKind.closing? at h
  split at h <;> cases h <;> rfl

theorem closing?_of_isPlain {k : TokenKind} (h : k.isPlain = true) : k.closing? = none :=
  Option.isNone_iff_eq_none.1 (Bool.and_eq_true_iff.1 h).1

theorem opensLevel_of_closing? {k : TokenKind} {c : Symbol} (h : k.closing? = some c) :
    opensLevel k = true := by
  unfold TokenKind.closing? at h
  split at h <;> first | rfl | cases h

namespace NestedWith

variable {bare : TokenKind → Prop} {ts us rest after : List Token}

theorem append (h : NestedWith bare ts) (later : NestedWith bare us) :
    NestedWith bare (ts ++ us) := by
  induction h with
  | nil => exact later
  | plain plain known _ ih => exact .plain plain known (ih later)
  | @group _ t t' _ inner ts opens within closes _ _ ih =>
    rw [List.cons_append, List.append_assoc, List.cons_append]
    exact .group opens within closes (ih later)

theorem counted {opens closes : TokenKind → Bool} (pairs : CountsPairs opens closes)
    (h : NestedWith bare ts) {n : Nat} (later : Counted opens closes (n + 1) rest after) :
    Counted opens closes (n + 1) (ts ++ rest) after := by
  induction h generalizing n rest with
  | nil => exact later
  | plain plain _ _ ih =>
    obtain ⟨notOpening, notClosing⟩ := pairs.plain _ plain
    exact .inside notOpening notClosing (ih later)
  | @group _ t t' c inner ts opening _ closing _ ihInner ih =>
    rw [List.cons_append, List.append_assoc, List.cons_append]
    obtain ⟨notClosing, same⟩ := pairs.opening _ _ opening
    have notOpening := pairs.closing _ _ opening
    rw [← closing] at same notOpening
    cases counted : opens t.kind with
    | true => exact .opening counted (ihInner (.closing notOpening (same ▸ counted) (ih later)))
    | false =>
      exact .inside counted notClosing (ihInner (.inside notOpening (same ▸ counted) (ih later)))

/-- The search for a semicolon passes over well nested tokens with none outside their groups. -/
theorem afterSemicolon?_append (h : NestedWith bare ts) (depth : Nat)
    (none : depth = 0 → ¬bare (.symbol .semicolon)) :
    afterSemicolon? depth (ts ++ rest) = afterSemicolon? depth rest := by
  induction h generalizing depth rest with
  | nil => rfl
  | @plain bare t ts plain known _ ih =>
    obtain ⟨notOpening, notClosing⟩ := countsPairs_levels.plain _ plain
    rw [List.cons_append, afterSemicolon?, notOpening, notClosing, if_neg Bool.false_ne_true,
      if_neg Bool.false_ne_true, if_neg, ih depth none]
    rw [Bool.and_eq_true, beq_iff_eq, beq_iff_eq]
    rintro ⟨semicolon, bottom⟩
    exact none bottom (semicolon ▸ known)
  | @group bare t t' c inner ts opening _ closing _ ihInner ih =>
    have opened := opensLevel_of_closing? opening
    obtain ⟨-, same⟩ := countsPairs_levels.opening _ _ opening
    have notOpening := countsPairs_levels.closing _ _ opening
    rw [← closing] at same notOpening
    rw [List.cons_append, List.append_assoc, List.cons_append, afterSemicolon?, if_pos opened,
      ihInner (depth + 1) (absurd · (Nat.succ_ne_zero depth)), afterSemicolon?, notOpening,
      if_neg Bool.false_ne_true, if_pos (same ▸ opened), Nat.add_sub_cancel, ih depth none]

end NestedWith

theorem closeGroup?_of_counted {opens closes : TokenKind → Bool} {depth : Nat}
    {ts rest : List Token} (h : Counted opens closes depth ts rest) (last : TokenKind) :
    ∃ inner, closeGroup? opens closes depth last ts = some (inner, rest) := by
  induction h generalizing last with
  | closed rest => exact ⟨[], by rw [closeGroup?]⟩
  | opening opening _ ih =>
    obtain ⟨inner, found⟩ := ih _
    exact ⟨inner, by rw [closeGroup?, if_pos opening, found]⟩
  | closing notOpening closing _ ih =>
    obtain ⟨inner, found⟩ := ih _
    refine ⟨inner, ?_⟩
    rw [closeGroup?, notOpening, if_neg Bool.false_ne_true, if_pos closing, found]
  | @inside n t _ _ notOpening notClosing _ ih =>
    obtain ⟨inner, found⟩ := ih t.kind
    refine ⟨if n = 0 then t :: inner else inner, ?_⟩
    rw [closeGroup?, notOpening, notClosing, if_neg Bool.false_ne_true, if_neg Bool.false_ne_true,
      found, Option.map_some]
    split <;> rfl

theorem Counted.unique {opens closes : TokenKind → Bool} {depth : Nat} {ts rest rest' : List Token}
    (h : Counted opens closes depth ts rest) (h' : Counted opens closes depth ts rest') :
    rest = rest' := by
  obtain ⟨_, found⟩ := closeGroup?_of_counted h .identifier
  obtain ⟨_, found'⟩ := closeGroup?_of_counted h' .identifier
  cases found.symm.trans found'
  rfl

/-- A group that begins within well nested tokens ends within them. -/
theorem NestedWith.closer {bare : TokenKind → Prop} {ts front later : List Token} {t : Token}
    {c : Symbol} (h : NestedWith bare ts) (same : ts = front ++ t :: later)
    (opening : t.kind.closing? = some c) :
    ∃ inner t' rest, later = inner ++ t' :: rest ∧ WellNested inner ∧ t'.kind = .symbol c := by
  have apart : ∀ {t' : Token} {c' : Symbol} {k : TokenKind}, k.closing? = some c' →
      t'.kind = .symbol c' → t ≠ t' := by
    rintro _ c' k opens closes rfl
    rw [closes, closing?_eq_none opens] at opening
    cases opening
  induction h generalizing front later with
  | nil => cases front <;> cases same
  | plain plain _ _ ih =>
    cases front with
    | nil =>
      cases same
      rw [closing?_of_isPlain plain] at opening
      cases opening
    | cons _ front => exact ih (List.cons.inj same).2
  | @group _ t₁ t₂ c₁ inner ts opens within closes _ ihInner ih =>
    cases front with
    | nil =>
      cases same
      cases opens.symm.trans opening
      exact ⟨inner, t₂, ts, rfl, within, closes⟩
    | cons _ front =>
      rcases List.append_eq_append_iff.1 (List.cons.inj same).2 with ⟨a, rfl, rest⟩ | ⟨a, rfl, rest⟩
      · cases a with
        | nil => exact (apart opens closes (List.cons.inj rest).1.symm).elim
        | cons _ a => exact ih (List.cons.inj rest).2
      · cases a with
        | nil => exact (apart opens closes (List.cons.inj rest).1).elim
        | cons _ a =>
          obtain ⟨rfl, rfl⟩ := List.cons.inj rest
          obtain ⟨inner', t', rest', rfl, nested, closing⟩ := ihInner rfl
          exact ⟨inner', t', rest' ++ t₂ :: ts, List.append_assoc .., nested, closing⟩

/-- Every opening delimiter has a later token of its own that closes it. -/
def EveryGroupClosed (ts : List Token) : Prop :=
  ∃ closer : Nat → Nat, ∀ i t c, ts[i]? = some t → t.kind.closing? = some c →
    i < closer i ∧ (ts[closer i]?.map Token.kind = some (.symbol c)) ∧
      ∀ j t' c', ts[j]? = some t' → t'.kind.closing? = some c' → closer j = closer i → j = i

theorem lt_length_of_kind {ts : List Token} {i : Nat} {k : TokenKind}
    (h : ts[i]?.map Token.kind = some k) : i < ts.length := by
  obtain ⟨_, here, -⟩ := Option.map_eq_some_iff.1 h
  exact (List.getElem?_eq_some_iff.1 here).1

/-- An opening delimiter in front of a closing one. -/
theorem getElem?_of_concat {ts : List Token} {t t' : Token} {c : Symbol} {i : Nat}
    (other : t'.kind.closing? = none) (opening : t.kind.closing? = some c)
    (here : (ts ++ [t'])[i]? = some t) : ts[i]? = some t := by
  rw [List.getElem?_append] at here
  split at here
  · exact here
  · obtain ⟨_, rfl⟩ := List.getElem?_eq_some_iff.1 here
    rw [List.getElem_singleton, other] at opening
    cases opening

namespace EveryGroupClosed

theorem singleton {t : Token} (other : t.kind.closing? = none) : EveryGroupClosed [t] := by
  refine ⟨id, fun i t' c here opening => ?_⟩
  obtain ⟨_, rfl⟩ := List.getElem?_eq_some_iff.1 here
  rw [List.getElem_singleton, other] at opening
  cases opening

theorem append {ts us : List Token} (first : EveryGroupClosed ts) (later : EveryGroupClosed us) :
    EveryGroupClosed (ts ++ us) := by
  obtain ⟨closer, closes⟩ := first
  obtain ⟨closer', closes'⟩ := later
  let both i := if i < ts.length then closer i else closer' (i - ts.length) + ts.length
  have cases_of {i : Nat} {t : Token} {c : Symbol} (here : (ts ++ us)[i]? = some t)
      (opening : t.kind.closing? = some c) :
      (ts[i]? = some t ∧ both i = closer i ∧ closer i < ts.length) ∨
        ∃ k, i = ts.length + k ∧ us[k]? = some t ∧ both i = ts.length + closer' k := by
    by_cases front : i < ts.length
    · rw [List.getElem?_append_left front] at here
      exact Or.inl ⟨here, if_pos front, lt_length_of_kind (closes i t c here opening).2.1⟩
    · obtain ⟨k, rfl⟩ := Nat.exists_eq_add_of_le (Nat.not_lt.1 front)
      rw [List.getElem?_append_right (Nat.le_add_right _ _), Nat.add_sub_cancel_left] at here
      refine Or.inr ⟨k, rfl, here, (if_neg front).trans ?_⟩
      rw [Nat.add_sub_cancel_left, Nat.add_comm]
  refine ⟨both, fun i t c here opening => ?_⟩
  rcases cases_of here opening with ⟨at', same, within⟩ | ⟨k, rfl, at', same⟩
  · obtain ⟨after, there, alone⟩ := closes i t c at' opening
    rw [same, List.getElem?_append_left within]
    refine ⟨after, there, fun j t' c' here' opening' equal => ?_⟩
    rcases cases_of here' opening' with ⟨at'', same', -⟩ | ⟨k', rfl, -, same'⟩
    · exact alone j t' c' at'' opening' (same'.symm.trans equal)
    · omega
  · obtain ⟨after, there, alone⟩ := closes' k t c at' opening
    rw [same, List.getElem?_append_right (Nat.le_add_right _ _), Nat.add_sub_cancel_left]
    refine ⟨Nat.add_lt_add_left after _, there, fun j t' c' here' opening' equal => ?_⟩
    rcases cases_of here' opening' with ⟨-, same', within⟩ | ⟨k', rfl, at'', same'⟩
    · omega
    · rw [alone k' t' c' at'' opening' (by omega)]

theorem enclose {t t' : Token} {c : Symbol} {inner : List Token}
    (opening : t.kind.closing? = some c) (within : EveryGroupClosed inner)
    (closing : t'.kind = .symbol c) : EveryGroupClosed (t :: (inner ++ [t'])) := by
  obtain ⟨closer, closes⟩ := within
  have last : (inner ++ [t'])[inner.length]? = some t' := List.getElem?_concat_length
  have inside {i : Nat} {u : Token} {c' : Symbol} (here : (inner ++ [t'])[i]? = some u)
      (opening' : u.kind.closing? = some c') : inner[i]? = some u ∧ closer i < inner.length := by
    have other : t'.kind.closing? = none := closing ▸ closing?_eq_none opening
    have here := getElem?_of_concat other opening' here
    exact ⟨here, lt_length_of_kind (closes i u c' here opening').2.1⟩
  let all i := if i = 0 then inner.length + 1 else closer (i - 1) + 1
  have all_zero : all 0 = inner.length + 1 := rfl
  have all_succ : ∀ i, all (i + 1) = closer i + 1 := fun _ => rfl
  refine ⟨all, fun i u c' here opening' => ?_⟩
  cases i with
  | zero =>
    cases here
    cases opening.symm.trans opening'
    rw [all_zero, List.getElem?_cons_succ, last, Option.map_some, closing]
    refine ⟨Nat.succ_pos _, rfl, fun j u' c'' here' opening'' equal => ?_⟩
    cases j with
    | zero => rfl
    | succ j =>
      have before := (inside here' opening'').2
      rw [all_succ] at equal
      omega
  | succ i =>
    obtain ⟨here, before⟩ := inside here opening'
    obtain ⟨after, there, alone⟩ := closes i u c' here opening'
    rw [all_succ, List.getElem?_cons_succ, List.getElem?_append_left before]
    refine ⟨Nat.succ_lt_succ after, there, fun j u' c'' here' opening'' equal => ?_⟩
    cases j with
    | zero => omega
    | succ j =>
      rw [all_succ, Nat.add_right_cancel_iff] at equal
      rw [alone j u' c'' (inside here' opening'').1 opening'' equal]

end EveryGroupClosed

theorem NestedWith.everyGroupClosed {bare : TokenKind → Prop} {ts : List Token}
    (h : NestedWith bare ts) : EveryGroupClosed ts := by
  induction h with
  | nil => exact ⟨id, fun i t c here => by cases here⟩
  | plain plain _ _ ih => exact .append (.singleton (closing?_of_isPlain plain)) ih
  | group opening _ closing _ ihInner ih =>
    rw [List.append_cons, ← List.cons_append]
    exact (EveryGroupClosed.enclose opening ihInner closing).append ih

end ResponseShape
