import TypedSexp.Proofs.Location
import TypedSexp.Proofs.Token.Layout

/-!
# The places of tokens and of lexing faults

Every token of a source stands inside it, and the text at its place is a spelling of its lexeme
(`Lexer.spells_of_mem_ofSource`). A fault of lexing stands inside the source as well
(`Lexer.inside_of_fault`): it names the characters that no lexeme starts with or that make no
number, and these are never none.

The text between tokens has no place of its own, and nothing is said about it.
-/

namespace TypedSexp

namespace Lexer

/-- No lexeme is spelled with no characters. -/
theorem Spells.ne_nil {l : Lexeme} {text : List Char} (h : Spells l text) : text ≠ [] := by
  cases hword : l.isWord with
  | true => exact (h.wordChars hword).1
  | false => exact (h.head_not_wordChar hword).1

/-- A token of a source spells the text at its place, also in a source that cannot be lexed to its
end. -/
theorem spells_of_mem_ofSource {source : String} {t : Token}
    (h : t ∈ (Lexed.ofSource source).tokens) : ∃ before word after,
      source.toList = before ++ word ++ after ∧ Spells t.lexeme word ∧
        t.span = ⟨before.length, (before ++ word).length⟩ := by
  obtain ⟨text, rest, l, hsource, -, htokens, -⟩ := laidOut_scan 0 source.toList
  have hmem : t ∈ l.tokens 0 := htokens ▸ h
  obtain ⟨before, word, after, htext, spells, hspan⟩ := l.spells_of_mem hmem
  refine ⟨before, word, after ++ rest, ?_, spells, hspan⟩
  rw [hsource, htext, List.append_assoc _ after rest]

/-- A token of a source stands inside it. -/
theorem inside_of_mem_ofSource {source : String} {t : Token}
    (h : t ∈ (Lexed.ofSource source).tokens) : t.span.Inside source.toList := by
  obtain ⟨before, word, after, hsource, spells, hspan⟩ := spells_of_mem_ofSource h
  rw [hspan]
  exact Span.inside_of_eq hsource spells.ne_nil

/-! ## Faults -/

/-- The fault names a part of a text that starts at offset `pos`. -/
def NamesPart (pos : Nat) (cs : List Char) (f : LexFault) : Prop :=
  ∃ before part after, cs = before ++ part ++ after ∧ part ≠ [] ∧
    f.span = ⟨(pos + before.length : Nat), (pos + (before ++ part).length : Nat)⟩

/-- What a fault names in the rest of a text it names in the text. -/
theorem NamesPart.later {pos : Nat} (skipped : List Char) {cs : List Char} {f : LexFault}
    (h : NamesPart (pos + skipped.length) cs f) : NamesPart pos (skipped ++ cs) f := by
  obtain ⟨before, part, after, rfl, hne, hspan⟩ := h
  refine ⟨skipped ++ before, part, after, by simp, hne, ?_⟩
  rw [hspan]
  simp only [List.length_append, Nat.add_assoc]

/-- A fault names what it is met at: one character, or a whole run. -/
theorem FaultAt.namesPart {pos : Nat} {cs : List Char} {e : LexFault} (h : FaultAt pos cs e) :
    NamesPart pos cs e := by
  cases h with
  | @unrecognized c rest h => exact ⟨[], [c], rest, rfl, by simp, rfl⟩
  | @malformed word rest h =>
    refine ⟨[], word, rest, rfl, ?_, rfl⟩
    obtain ⟨c, hc, -⟩ := h.start
    exact List.ne_nil_of_mem (List.mem_of_mem_head? hc)

/-- A fault of lexing names a part of the text, which is never empty: one character, or a run that
makes no number. -/
theorem namesPart_of_scan (pos : Nat) (cs : List Char) :
    ∀ f ∈ (scan pos cs).fault, NamesPart pos cs f := by
  refine scan_ind (motive := fun pos cs r => ∀ f ∈ r.fault, NamesPart pos cs f)
    (fun _ => nofun) ?fault ?blank ?comment ?lexeme pos cs
  case fault =>
    rintro pos cs e h _ ⟨⟩
    exact h.namesPart
  case blank =>
    intro pos c rest r _ ih f hf
    exact NamesPart.later [c] (ih f hf)
  case comment =>
    intro pos body rest r _ _ ih f hf
    have hlength : (';' :: body).length = 1 + body.length := by
      rw [List.length_cons, Nat.add_comm]
    have hrest := ih f hf
    rw [Nat.add_assoc, ← hlength] at hrest
    exact hrest.later _
  case lexeme =>
    intro pos x word rest r _ _ ih f hf
    exact NamesPart.later word (ih f hf)

/-- A fault of lexing a source stands inside it, with at least one character. -/
theorem inside_of_fault {source : String} {f : LexFault}
    (h : (Lexed.ofSource source).fault = some f) : f.span.Inside source.toList := by
  obtain ⟨before, part, after, hsource, hne, hspan⟩ := namesPart_of_scan 0 source.toList f h
  rw [hspan, Nat.zero_add, Nat.zero_add]
  exact Span.inside_of_eq hsource hne

end Lexer

theorem LexFault.diagnostic_span (f : LexFault) : f.diagnostic.span = some f.span := by
  cases f <;> rfl

end TypedSexp
