import ResponseShape.Proofs.Pieces

/-! Blanks in front of the open tag. The tag and these blanks take up as many characters as they
have bytes, so a blank that is not ASCII costs the text behind the tag some of its characters. Main
statement: `TokenStream.reading_blanks`. -/
namespace ResponseShape.TokenStream

open Piece

theorem openTagLength_untagged {text : List Char}
    (h : ¬openTag <+: text.dropWhile Text.isBlank) : openTagLength text = 0 :=
  if_neg fun tagged => h (List.isPrefixOf_iff_prefix.1 tagged)

theorem utf8ByteSize_cons (c : Char) (cs : List Char) :
    (String.ofList (c :: cs)).utf8ByteSize = c.utf8Size + (String.ofList cs).utf8ByteSize := by
  rw [String.ofList_cons, String.utf8ByteSize_append, String.utf8ByteSize_singleton]

theorem length_le_utf8ByteSize (cs : List Char) :
    cs.length ≤ (String.ofList cs).utf8ByteSize := by
  induction cs with
  | nil => simp
  | cons c cs ih =>
    have := c.utf8Size_pos
    rw [utf8ByteSize_cons, List.length_cons]
    omega

theorem utf8Size_eq_one_iff {c : Char} : c.utf8Size = 1 ↔ c.toNat < 0x80 := by
  rw [Char.utf8Size_eq_one_iff, UInt32.le_iff_toNat_le]
  exact Nat.lt_succ_iff.symm

theorem utf8ByteSize_eq_length_iff (cs : List Char) :
    (String.ofList cs).utf8ByteSize = cs.length ↔ ∀ c ∈ cs, c.toNat < 0x80 := by
  induction cs with
  | nil => simp
  | cons c cs ih =>
    have one := c.utf8Size_pos
    have more := length_le_utf8ByteSize cs
    rw [utf8ByteSize_cons, List.length_cons, List.forall_mem_cons, ← ih, ← utf8Size_eq_one_iff]
    omega

/-- What tokens say: their kinds and their texts, but not where they stand. -/
def said (s : TokenStream) : List (TokenKind × String) := s.tokens.map fun t => (t.kind, t.lexeme)

def heard (answer : Except ParseError TokenStream) : Except Fault (List (TokenKind × String)) :=
  (answer.map said).mapError ParseError.fault

def reading (source : String) : Except Fault (List (TokenKind × String)) := heard (ofText source)

theorem said_placed (pieces : List Piece) (p p' : Position) :
    (placed p pieces).map (fun t => (t.kind, t.lexeme)) =
      (placed p' pieces).map fun t => (t.kind, t.lexeme) := by
  induction pieces generalizing p p' with
  | nil => rfl
  | cons piece pieces ih =>
    rw [placed, placed, List.map_append, List.map_append, ih _ (p'.advance piece.text)]
    cases piece.kind <;> rfl

theorem heard_scan (p p' : Position) (text : List Char) :
    heard (scan p text) = heard (scan p' text) := by
  obtain ⟨pieces, after, -, ends⟩ := exists_cut text
  rcases ends with ⟨-, scanned⟩ | ⟨fault, scanned⟩
  · rw [scanned, scanned]
    exact congrArg Except.ok (said_placed pieces p p')
  · rw [scanned, scanned]
    rfl

theorem toList_tagged (blanks rest : String) :
    (blanks ++ "<?php" ++ rest).toList = blanks.toList ++ openTag ++ rest.toList := by
  rw [String.toList_append, String.toList_append]
  rfl

/-- The tag and the blanks before it are passed over, and as many characters more as the blanks have
bytes more than characters. -/
theorem reading_tagged {blanks : String} (blank : ∀ c ∈ blanks.toList, Text.isBlank c = true)
    (rest : String) (p : Position) :
    reading (blanks ++ "<?php" ++ rest) =
      heard (scan p (rest.toList.drop (blanks.utf8ByteSize - blanks.length))) := by
  have more := length_le_utf8ByteSize blanks.toList
  have length : (blanks.toList ++ openTag).length = blanks.length + openTag.length :=
    List.length_append
  rw [String.ofList_toList, String.length_toList] at more
  have taken : blanks.utf8ByteSize + openTag.length - (blanks.toList ++ openTag).length =
      blanks.utf8ByteSize - blanks.length := by
    omega
  unfold reading ofText
  dsimp only
  rw [toList_tagged, openTagLength_tagged blank, String.ofList_toList, List.drop_append,
    List.drop_of_length_le (by omega), List.nil_append, taken]
  exact heard_scan _ _ _

theorem reading_untouched (rest : String) (p : Position) :
    reading ("<?php" ++ rest) = heard (scan p rest.toList) := by
  have noBlanks : ∀ c ∈ "".toList, Text.isBlank c = true := nofun
  exact reading_tagged noBlanks rest p

/-- A blank that is not ASCII costs the text behind the tag as many characters as it has bytes more
than one, so blanks do not matter just if all of them are ASCII. -/
theorem reading_blanks {blanks : String} (blank : ∀ c ∈ blanks.toList, Text.isBlank c = true) :
    (∀ rest : String, reading (blanks ++ "<?php" ++ rest) =
      reading ("<?php" ++
        String.ofList (rest.toList.drop (blanks.utf8ByteSize - blanks.length)))) ∧
    ((∀ rest : String, reading (blanks ++ "<?php" ++ rest) = reading ("<?php" ++ rest)) ↔
      ∀ c ∈ blanks.toList, c.toNat < 0x80) := by
  have taken : ∀ rest : String, reading (blanks ++ "<?php" ++ rest) = reading ("<?php" ++
      String.ofList (rest.toList.drop (blanks.utf8ByteSize - blanks.length))) := fun rest => by
    rw [reading_tagged blank rest Position.start, reading_untouched _ Position.start,
      String.toList_ofList]
  have ascii := utf8ByteSize_eq_length_iff blanks.toList
  have more := length_le_utf8ByteSize blanks.toList
  rw [String.ofList_toList, String.length_toList] at ascii more
  refine ⟨taken, ?_⟩
  rw [← ascii]
  constructor
  · intro same
    -- one more byte, and a semicolon behind the tag is lost
    by_contra longer
    have lost := (taken ";").symm.trans (same ";")
    rw [List.drop_of_length_le (by simp; omega)] at lost
    have none : reading ("<?php" ++ String.ofList []) = .ok [] := by with_unfolding_all rfl
    have one : reading ("<?php" ++ ";") = .ok [(.symbol .semicolon, ";")] := by
      with_unfolding_all rfl
    rw [none, one] at lost
    cases lost
  · intro plain rest
    rw [taken, plain, Nat.sub_self, List.drop_zero, String.ofList_toList]

theorem reading_blanks_ideographic :
    (∀ c ∈ "\n\u3000".toList, Text.isBlank c = true) ∧
      (∀ rest : String, reading ("\n\u3000" ++ "<?php" ++ rest) =
        reading ("<?php" ++ String.ofList (rest.toList.drop 2))) ∧
      ¬∀ rest : String, reading ("\n\u3000" ++ "<?php" ++ rest) = reading ("<?php" ++ rest) :=
  have blank : ∀ c ∈ "\n\u3000".toList, Text.isBlank c = true := List.all_eq_true.1 rfl
  have wide : ¬∀ c ∈ "\n\u3000".toList, c.toNat < 0x80 := by simp
  ⟨blank, (reading_blanks blank).1, mt (reading_blanks blank).2.1 wide⟩

/-- An ideographic space has three bytes, so the tag is passed over together with the two characters
behind it, of which the second begins a keyword here. -/
theorem blank_takes_keyword :
    Text.isBlank '\u3000' = true ∧
      reading "<?php class R \x7b\x7d" = .ok [(.keyword .kwClass, "class"), (.identifier, "R"),
        (.symbol .leftBrace, "\x7b"), (.symbol .rightBrace, "\x7d")] ∧
      reading "\u3000<?php class R \x7b\x7d" = .ok [(.identifier, "lass"), (.identifier, "R"),
        (.symbol .leftBrace, "\x7b"), (.symbol .rightBrace, "\x7d")] :=
  ⟨by decide, by with_unfolding_all rfl, by with_unfolding_all rfl⟩

/-- If the text has an open tag, the blanks in front of it are ASCII. -/
def PlainTag (text : List Char) : Prop :=
  openTag <+: text.dropWhile Text.isBlank → ∀ c ∈ text.takeWhile Text.isBlank, c.toNat < 0x80

/-- What the open tag and the blanks before it are in a text: nothing if it has no tag. -/
inductive Opens (text : List Char) : List Char → Prop
  | untagged (none : ¬openTag <+: text.dropWhile Text.isBlank) : Opens text []
  | tagged {blanks : List Char} (blank : ∀ c ∈ blanks, Text.isBlank c = true)
      (ascii : ∀ c ∈ blanks, c.toNat < 0x80) (opens : blanks ++ openTag <+: text) :
      Opens text (blanks ++ openTag)

theorem PlainTag.exists_opening {text : List Char} (plain : PlainTag text) :
    ∃ opening body, text = opening ++ body ∧ Opens text opening ∧
      openTagLength text = opening.length := by
  by_cases tag : openTag <+: text.dropWhile Text.isBlank
  · obtain ⟨body, behind⟩ := tag
    have blank : ∀ c ∈ text.takeWhile Text.isBlank, Text.isBlank c = true := fun c =>
      List.mem_takeWhile_imp
    have ascii := plain ⟨body, behind⟩
    have split : text.takeWhile Text.isBlank ++ openTag ++ body = text := by
      rw [List.append_assoc, behind, List.takeWhile_append_dropWhile]
    refine ⟨_, body, split.symm, .tagged blank ascii ⟨body, split⟩, ?_⟩
    conv => lhs; rw [← split]
    rw [openTagLength_tagged blank, (utf8ByteSize_eq_length_iff _).2 ascii, List.length_append]
  · exact ⟨[], text, rfl, .untagged tag, openTagLength_untagged tag⟩

theorem cut_of_ofText {source : String} {opening body : List Char} {s : TokenStream}
    (split : source.toList = opening ++ body)
    (length : openTagLength source.toList = opening.length) (read : ofText source = .ok s) :
    ∃ pieces after, Cut body pieces after ∧ Finished after ∧
      s = ⟨placed (Position.start.advance opening) pieces,
        (Position.start.advance opening).advance (joined pieces)⟩ := by
  obtain ⟨pieces, after, cut, finished, p, place, rfl⟩ := exists_cut_of_ofText read
  rw [length, split, List.drop_left] at cut
  rw [length, split, List.take_left] at place
  exact ⟨pieces, after, cut, finished, by rw [place]⟩

end ResponseShape.TokenStream
