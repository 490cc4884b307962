import EscapeTime.Proofs.Formula.RawCode
import EscapeTime.Proofs.Text.Mending

/-!
# Raw code in bytes

A formula comes as bytes and its code leaves as bytes. What stands between quotes influences nothing
else, and it leaves as it came if and only if it is well-formed UTF-8: a byte that starts no
character is written as the replacement character.
-/

namespace EscapeTime

open Node Text

/-- Bytes with slots: `lead`, then for each slot the bytes that follow it. -/
structure ByteFrame where
  lead : List UInt8
  tail : List (List UInt8)

namespace ByteFrame

variable {t : ByteFrame} {pieces pieces' : List (List UInt8)}

/-- The frame with its slots filled. -/
def fill (t : ByteFrame) (pieces : List (List UInt8)) : List UInt8 :=
  t.lead ++ (List.zipWith (· ++ ·) pieces t.tail).flatten

theorem fill_nil (lead : List UInt8) : fill ⟨lead, []⟩ [] = lead :=
  List.append_nil lead

theorem fill_cons (lead segment piece : List UInt8) (tail pieces : List (List UInt8)) :
    fill ⟨lead, segment :: tail⟩ (piece :: pieces) =
      lead ++ (piece ++ fill ⟨segment, tail⟩ pieces) := by
  simp [fill]

/-- Longer pieces make a longer text. -/
theorem length_fill_le (longer : List.Forall₂ (fun p q => p.length ≤ q.length) pieces pieces') :
    (t.fill pieces).length ≤ (t.fill pieces').length := by
  obtain ⟨lead, tail⟩ := t
  induction longer generalizing lead tail with
  | nil => exact Nat.le_refl _
  | @cons p q ps qs here _ ih =>
    cases tail with
    | nil => exact Nat.le_refl _
    | cons segment tail =>
      have rest := ih segment tail
      simp only [fill_cons, List.length_append]
      omega

/-- Pieces that are not longer make the same text only if they are the same. -/
theorem fill_inj (longer : List.Forall₂ (fun p q => p.length ≤ q.length) pieces pieces')
    (count : pieces.length = t.tail.length) (same : t.fill pieces = t.fill pieces') :
    pieces = pieces' := by
  obtain ⟨lead, tail⟩ := t
  induction longer generalizing lead tail with
  | nil => rfl
  | @cons p q ps qs here others ih =>
    obtain ⟨segment, tail, rfl⟩ := List.exists_cons_of_length_eq_add_one count.symm
    rw [fill_cons, fill_cons, List.append_cancel_left_eq] at same
    have rest : (fill ⟨segment, tail⟩ ps).length ≤ (fill ⟨segment, tail⟩ qs).length :=
      length_fill_le others
    have whole := congrArg List.length same
    rw [List.length_append, List.length_append] at whole
    obtain ⟨rfl, later⟩ := List.append_inj same (by omega)
    rw [ih segment tail (Nat.succ.inj count) later]

/-- The frame read as text. -/
def text (t : ByteFrame) : Template :=
  ⟨decodeFrom 0 t.lead, t.tail.map (decodeFrom 0)⟩

/-- The bytes of a template. -/
def ofTemplate (t : Template) : ByteFrame :=
  ⟨t.lead.flatMap String.utf8EncodeChar, t.tail.map (·.flatMap String.utf8EncodeChar)⟩

theorem encodeUtf8_weave (segments : List (List Char)) (args : List String) :
    encodeUtf8 (Template.weave segments args) =
      (List.zipWith (· ++ ·) (args.map encodeUtf8)
        (segments.map (·.flatMap String.utf8EncodeChar))).flatten := by
  induction segments generalizing args with
  | nil => cases args <;> rfl
  | cons segment segments ih =>
    cases args with
    | nil => rfl
    | cons arg args =>
      rw [Template.weave, encodeUtf8_append, encodeUtf8_append, ih, encodeUtf8_ofList]
      rfl

theorem fill_ofTemplate {t : Template} {args : List String} {text : String}
    (count : t.slots = args.length) (filled : t.fill? args = some text) :
    (ofTemplate t).fill (args.map encodeUtf8) = encodeUtf8 text := by
  rw [Template.fill?_eq_filled count.symm] at filled
  rw [← Option.some.inj filled, Template.filled, encodeUtf8_append, encodeUtf8_ofList,
    encodeUtf8_weave]
  rfl

end ByteFrame

/-! ### Bytes with quoted spans -/

/-- A quotation mark. -/
def quoteMark : UInt8 := 0x22

def quotedBytes (content : List UInt8) : List UInt8 :=
  quoteMark :: (content ++ [quoteMark])

/-- The bytes `source` have closed quoted spans with these contents in the slots of `outside`, and
no other quotes. -/
structure QuotesBytes (outside : ByteFrame) (contents : List (List UInt8)) (source : List UInt8) :
    Prop where
  lead : quoteMark ∉ outside.lead
  tail : ∀ segment ∈ outside.tail, quoteMark ∉ segment
  plain : ∀ content ∈ contents, quoteMark ∉ content
  count : contents.length = outside.tail.length
  filled : outside.fill (contents.map quotedBytes) = source

theorem exists_quotesBytes (source : List UInt8) (even : source.count quoteMark % 2 = 0) :
    ∃ outside contents, QuotesBytes outside contents source := by
  induction size : source.length using Nat.strong_induction_on generalizing source with
  | _ n ih =>
    by_cases opened : quoteMark ∈ source
    · obtain ⟨lead, rest, rfl, leadPlain⟩ := List.eq_append_cons_of_mem opened
      rw [List.count_append, List.count_cons_self, List.count_eq_zero.mpr leadPlain] at even
      have closed : quoteMark ∈ rest := by
        rw [← List.count_pos_iff]
        omega
      obtain ⟨code, after, rfl, codePlain⟩ := List.eq_append_cons_of_mem closed
      rw [List.count_append, List.count_cons_self, List.count_eq_zero.mpr codePlain] at even
      have shorter : after.length < n := by
        simp only [← size, List.length_append, List.length_cons]
        omega
      obtain ⟨⟨segment, tail⟩, contents, quotes⟩ := ih _ shorter after (by omega) rfl
      refine ⟨⟨lead, segment :: tail⟩, code :: contents, leadPlain, ?_, ?_, ?_, ?_⟩
      · exact List.forall_mem_cons.mpr ⟨quotes.lead, quotes.tail⟩
      · exact List.forall_mem_cons.mpr ⟨codePlain, quotes.plain⟩
      · exact congrArg (· + 1) quotes.count
      · rw [List.map_cons, ByteFrame.fill_cons, quotes.filled]
        simp [quotedBytes]
    · exact ⟨⟨source, []⟩, [], opened, nofun, nofun, rfl, ByteFrame.fill_nil source⟩

theorem quoteMark_not_mem {bytes : List UInt8} (plain : quoteMark ∉ bytes) :
    '"' ∉ decodeFrom 0 bytes := by
  rwa [← (decodeFrom_reading bytes).mem_ascii (by decide)] at plain

theorem decodeFrom_quoting {lead : List UInt8} {tail contents : List (List UInt8)}
    (count : contents.length = tail.length) :
    decodeFrom 0 (ByteFrame.fill ⟨lead, tail⟩ (contents.map quotedBytes)) =
      quoting (ByteFrame.text ⟨lead, tail⟩) (contents.map decodeUtf8) := by
  induction tail generalizing lead contents with
  | nil =>
    obtain rfl := List.length_eq_zero_iff.mp count
    rw [List.map_nil, ByteFrame.fill_nil]
    exact (quoting_nil _).symm
  | cons segment tail ih =>
    obtain ⟨content, contents, rfl⟩ := List.exists_cons_of_length_eq_add_one count
    have shape : ByteFrame.fill ⟨lead, segment :: tail⟩ ((content :: contents).map quotedBytes) =
        lead ++ quoteMark :: (content ++ quoteMark ::
          ByteFrame.fill ⟨segment, tail⟩ (contents.map quotedBytes)) := by
      rw [List.map_cons, ByteFrame.fill_cons]
      simp [quotedBytes]
    rw [shape, decodeFrom_append (by decide), decodeFrom_append (by decide),
      ih (Nat.succ.inj count)]
    have spelled := quoting_cons (decodeFrom 0 lead) (decodeFrom 0 segment)
      (tail.map (decodeFrom 0)) (decodeUtf8 content) (contents.map decodeUtf8)
    rw [decodeUtf8, String.toList_ofList] at spelled
    exact spelled.symm

theorem QuotesBytes.quotes {outside : ByteFrame} {contents : List (List UInt8)}
    {source : List UInt8} (quotes : QuotesBytes outside contents source) :
    Quotes outside.text (contents.map decodeUtf8) (decodeUtf8 source) := by
  have count : (contents.map decodeUtf8).length = outside.text.slots := by
    simpa [ByteFrame.text, Template.slots] using quotes.count
  refine ⟨quoteMark_not_mem quotes.lead, ?_, ?_, count, ?_⟩
  · rw [ByteFrame.text]
    exact List.forall_mem_map.2 fun segment mem => quoteMark_not_mem (quotes.tail segment mem)
  · refine List.forall_mem_map.2 fun content mem => ?_
    rw [decodeUtf8, String.toList_ofList]
    exact quoteMark_not_mem (quotes.plain content mem)
  · rw [fill?_quoting count, decodeUtf8, ← quotes.filled, decodeFrom_quoting quotes.count]

/-! ### Code -/

theorem kept_map {α β : Type} (f : α → β) (xs : List α) (written : List Bool) :
    kept ((xs.map f).zip written) = (kept (xs.zip written)).map f := by
  rw [kept, kept, List.zip_map_left, List.filter_map, List.map_map, List.map_map]
  rfl

theorem mended_pieces (contents : List (List UInt8)) :
    List.Forall₂ Mended contents (contents.map mend) := by
  rw [List.forall₂_map_right_iff, List.forall₂_same]
  exact fun content _ => mended_mend content

theorem map_mend_eq_iff {contents : List (List UInt8)} :
    contents.map mend = contents ↔ ∀ content ∈ contents, WellFormed content := by
  have same : contents.map mend = contents.map id ↔ ∀ content ∈ contents, mend content = content :=
    List.map_inj_left
  rw [List.map_id] at same
  simpa only [mend_eq_self_iff] using same

namespace Formula

/-- The bytes between quotes influence nothing else. Every byte string whose quotes come in pairs is
some `outside` with contents in quotes. For each `outside`, either all contents are rejected, or all
are accepted, and then the code is one frame with the contents of the spans in its slots, mended.
They are there as they came if and only if all of them are well formed. The spans keep their order;
those below an `im` with its real form are dropped. -/
theorem raw_code_verbatim_iff (outside : ByteFrame) :
    (∀ source : List UInt8, source.count quoteMark % 2 = 0 →
      ∃ outside contents, QuotesBytes outside contents source) ∧
    ((∃ (frame : ByteFrame) (written : List Bool),
        ∀ contents source, QuotesBytes outside contents source →
          ∃ f pieces, parseBytes source = .ok f ∧ written.length = contents.length ∧
            f.root.spans true = (contents.map decodeUtf8).zip written ∧
            frame.tail.length = (kept (contents.zip written)).length ∧
            List.Forall₂ Mended (kept (contents.zip written)) pieces ∧
            compileBytes source = .ok (frame.fill pieces) ∧
            (compileBytes source = .ok (frame.fill (kept (contents.zip written))) ↔
              ∀ content ∈ kept (contents.zip written), WellFormed content)) ∨
      ∀ contents source, QuotesBytes outside contents source →
        ∃ e, parseBytes source = .error (.rejected e)) := by
  refine ⟨exists_quotesBytes, ?_⟩
  obtain ⟨frame, written, framed⟩ | rejected := compile_quoted outside.text
  · refine .inl ⟨.ofTemplate frame, written, fun contents source quotes => ?_⟩
    obtain ⟨f, text, parsed, compiled, length, spans, slots, filled⟩ := framed _ _ quotes.quotes
    rw [kept_map] at slots filled
    have bytes : compileBytes source =
        .ok ((ByteFrame.ofTemplate frame).fill ((kept (contents.zip written)).map mend)) := by
      have code := ByteFrame.fill_ofTemplate slots filled
      rw [List.map_map] at code
      rw [compileBytes, compiled]
      exact congrArg Except.ok code.symm
    have mended := mended_pieces (kept (contents.zip written))
    have count : (kept (contents.zip written)).length =
        (ByteFrame.ofTemplate frame).tail.length := by
      simpa [ByteFrame.ofTemplate, Template.slots] using slots.symm
    refine ⟨f, _, parsed, by simpa using length, spans, count.symm, mended, bytes, ?_⟩
    rw [bytes, ← map_mend_eq_iff]
    constructor
    · intro same
      exact (ByteFrame.fill_inj (mended.imp fun _ _ => Mended.length_le) count
        (Except.ok.inj same).symm).symm
    · intro same
      rw [same]
  · exact .inr fun contents source quotes => rejected _ _ quotes.quotes

/-- The bytes around three spans: a factor, the argument of an `im` of no complex argument, and what
stands between two bars. -/
def threeSpans : ByteFrame :=
  ⟨[], [encodeUtf8 "*z+im(", encodeUtf8 ")-|", encodeUtf8 "|"]⟩

/-- The contents of the three spans: of these, the second is malformed but dropped. -/
def threeContents : List (List UInt8) :=
  [encodeUtf8 "a B", [0xFF], encodeUtf8 "log**"]

theorem threeSpans_verbatim :
    QuotesBytes threeSpans threeContents (threeSpans.fill (threeContents.map quotedBytes)) ∧
      ∃ (frame : ByteFrame) (written : List Bool) (f : Formula),
        parseBytes (threeSpans.fill (threeContents.map quotedBytes)) = .ok f ∧
        f.root.spans true = (threeContents.map decodeUtf8).zip written ∧
        compileBytes (threeSpans.fill (threeContents.map quotedBytes)) =
          .ok (frame.fill (kept (threeContents.zip written))) ∧
        ∀ content ∈ kept (threeContents.zip written), WellFormed content := by
  have quotes : QuotesBytes threeSpans threeContents
      (threeSpans.fill (threeContents.map quotedBytes)) :=
    ⟨by decide, by decide, by decide, rfl, rfl⟩
  have read : (parseBytes (threeSpans.fill (threeContents.map quotedBytes))).map
      (·.root.spans true) = .ok [("a B", true), ("\uFFFD", false), ("log**", true)] := by
    decide +kernel
  obtain ⟨frame, written, framed⟩ | rejected := (raw_code_verbatim_iff threeSpans).2
  · obtain ⟨f, pieces, parsed, length, spans, -, -, -, verbatim⟩ := framed _ _ quotes
    rw [parsed] at read
    have marks : written = [true, false, true] := by
      have snd : ((threeContents.map decodeUtf8).zip written).map Prod.snd = written :=
        List.map_snd_zip (Nat.le_of_eq length)
      rw [← snd, ← spans]
      exact congrArg (List.map Prod.snd) (Except.ok.inj read)
    have wellFormed : ∀ content ∈ kept (threeContents.zip written), WellFormed content := by
      rw [marks]
      exact List.forall_mem_cons.2 ⟨⟨_, rfl⟩, List.forall_mem_cons.2 ⟨⟨_, rfl⟩, nofun⟩⟩
    exact ⟨quotes, frame, written, f, parsed, spans, verbatim.2 wellFormed, wellFormed⟩
  · obtain ⟨e, failed⟩ := rejected _ _ quotes
    rw [failed] at read
    cases read

/-- A byte that starts no character is not written, so no frame holds what stands between quotes as
it came. -/
theorem malformed_byte_replaced :
    compileBytes [0x22, 0xFF, 0x22] = .ok [0xEF, 0xBF, 0xBD] ∧
      ¬ ∃ frame : ByteFrame, ∀ contents source, QuotesBytes ⟨[], [[]]⟩ contents source →
        compileBytes source = .ok (frame.fill contents) := by
  have malformed : compileBytes [0x22, 0xFF, 0x22] = .ok [0xEF, 0xBF, 0xBD] := by decide +kernel
  have letter : compileBytes [0x22, 0x61, 0x22] = .ok [0x61] := by decide +kernel
  refine ⟨malformed, ?_⟩
  rintro ⟨⟨lead, tail⟩, verbatim⟩
  have first := verbatim [[0xFF]] _ ⟨by decide, by decide, by decide, rfl, rfl⟩
  have second := verbatim [[0x61]] _ ⟨by decide, by decide, by decide, rfl, rfl⟩
  have first := Except.ok.inj (malformed.symm.trans first)
  have second := Except.ok.inj (letter.symm.trans second)
  cases tail with
  | nil => cases first.trans second.symm
  | cons segment tail =>
    have written : 0xFF ∈ ByteFrame.fill ⟨lead, segment :: tail⟩ [[0xFF]] := by
      simp [ByteFrame.fill_cons]
    rw [← first] at written
    exact absurd written (by decide)

end Formula

end EscapeTime
