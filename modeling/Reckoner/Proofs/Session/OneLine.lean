import Reckoner.Proofs.Expr.FirstFault
import Reckoner.Proofs.Number.ReadBack
import Reckoner.Proofs.Token.Foreign
import Reckoner.Proofs.Token.Join
import Reckoner.Session

namespace Reckoner

def Unbroken (s : String) : Prop :=
  '\n' ∉ s.toList

instance : DecidablePred Unbroken :=
  fun s => inferInstanceAs (Decidable ('\n' ∉ s.toList))

theorem unbroken_append {s t : String} : Unbroken (s ++ t) ↔ Unbroken s ∧ Unbroken t := by
  simp [Unbroken]

theorem unbroken_of_subset {s t : String} (inside : s.toList ⊆ t.toList) (whole : Unbroken t) :
    Unbroken s :=
  fun member => whole (inside member)

theorem unbroken_repr (n : Nat) : Unbroken n.repr := by
  rw [Unbroken, Nat.toList_repr]
  intro member
  have digit := Nat.isDigit_of_mem_toDigits (by decide) (by decide) member
  contradiction

namespace Number

theorem lineFeed_not_mem_text (d : Decimal) : '\n' ∉ d.text := by
  intro member
  rcases d.read?_text.1.numeric member with digit | point <;> contradiction

theorem unbroken_magnitudeText (bits : Nat) : Unbroken (magnitudeText bits) := by
  unfold magnitudeText
  split
  · decide
  · rw [Unbroken, String.toList_ofList]
    exact lineFeed_not_mem_text _

theorem unbroken_text (x : Float) : Unbroken (text x) := by
  unfold text
  dsimp only
  split
  · decide
  · split
    · exact unbroken_magnitudeText _
    · exact unbroken_append.mpr ⟨by decide, unbroken_magnitudeText _⟩

end Number

theorem unbroken_foreign {text : String} {f : ForeignCharacter} (whole : Unbroken text)
    (failed : Token.scan text = .error f) : Unbroken f.message := by
  have blames := Token.scan_blames text
  rw [failed] at blames
  obtain ⟨u, v, split, _⟩ := blames
  have other : '\n' ≠ f.character := by
    intro same
    apply whole
    simp [split, ← same]
  dsimp only [ForeignCharacter.message]
  simp only [ToString.toString, unbroken_append, unbroken_repr]
  simp [Unbroken, other]

theorem unbroken_malformed {text : String} {limit : Nat} {ts : List Token} {fault : GrammarFault}
    (whole : Unbroken text) (scanned : Token.scan text = .ok ts)
    (failed : Expr.ofTokens limit ts = .error fault) : Unbroken fault.message := by
  have shown (piece : String) (some' : Expr.shown? fault = some piece) : Unbroken piece := by
    obtain ⟨kind, member, _⟩ := Expr.ofTokens_shown failed some'
    exact unbroken_of_subset (Token.subset_of_scan scanned member) whole
  cases fault with
  | empty | unexpectedEnd | unclosed =>
    dsimp only [GrammarFault.message]
    simp [Unbroken]
  | unexpectedToken piece | trailing piece | badNumeral piece =>
    dsimp only [GrammarFault.message]
    simp only [ToString.toString, unbroken_append, shown piece rfl]
    simp [Unbroken]
  | tooDeep n =>
    dsimp only [GrammarFault.message]
    simp only [ToString.toString, unbroken_append, unbroken_repr]
    simp [Unbroken]

/-- A refusal of a text in one line says so in one line. -/
theorem unbroken_refusal {text : String} {limit : Nat} {refusal : Refusal} (whole : Unbroken text)
    (refused : evaluate limit text = .error refusal) : Unbroken refusal.message := by
  unfold evaluate evaluateTraced at refused
  cases scanned : Token.scan text with
  | error f =>
    simp only [scanned, Except.error.injEq] at refused
    subst refused
    exact unbroken_foreign whole scanned
  | ok ts =>
    cases failed : Expr.ofTokens limit ts with
    | error fault =>
      simp only [scanned, failed, Except.error.injEq] at refused
      subst refused
      exact unbroken_malformed whole scanned failed
    | ok tree =>
      simp only [scanned, failed] at refused
      contradiction

def decode? (bytes : List UInt8) : Option String :=
  String.fromUTF8? ⟨bytes.toArray⟩

theorem unbroken_of_decode? {bytes : List UInt8} {line : String} (decoded : decode? bytes = some line)
    (noFeed : 10 ∉ bytes) : Unbroken line := by
  unfold decode? String.fromUTF8? at decoded
  split at decoded
  · next valid =>
    cases decoded
    intro member
    have encoded := String.utf8Encode_toList (b := String.fromUTF8 ⟨bytes.toArray⟩ valid)
    have same : (String.fromUTF8 ⟨bytes.toArray⟩ valid).toList.flatMap String.utf8EncodeChar =
        bytes := by
      have data := congrArg (fun b => b.data.toList) encoded
      rwa [List.utf8Encode, List.toList_data_toByteArray] at data
    apply noFeed
    rw [← same, List.mem_flatMap]
    exact ⟨'\n', member, by decide⟩
  · contradiction

namespace Text

theorem lineFeed_not_mem_completeLine {pending : List UInt8} (noFeed : 10 ∉ pending) :
    10 ∉ completeLine pending := by
  unfold completeLine
  split
  · next reversed =>
    intro member
    exact noFeed (List.mem_cons_of_mem 13 (List.mem_reverse.mp member))
  · simpa using noFeed

theorem lineFeed_not_mem_splitLines {pending : List UInt8} (noFeed : 10 ∉ pending)
    (bytes : List UInt8) :
    (∀ line ∈ (splitLines pending bytes).lines, 10 ∉ line) ∧
      10 ∉ (splitLines pending bytes).pending := by
  fun_induction splitLines pending bytes with
  | case1 pending => exact ⟨by simp, noFeed⟩
  | case2 pending bytes others ih =>
    obtain ⟨lines, pending⟩ := ih List.not_mem_nil
    refine ⟨?_, pending⟩
    intro line member
    rcases List.mem_cons.mp member with rfl | member
    · exact lineFeed_not_mem_completeLine noFeed
    · exact lines line member
  | case3 pending b bytes other ih =>
    apply ih
    intro member
    rcases List.mem_cons.mp member with same | member
    · exact other same.symm
    · exact noFeed member

theorem lineFeed_not_mem_lines {bytes line : List UInt8} (member : line ∈ lines bytes) :
    10 ∉ line := by
  obtain ⟨complete, last⟩ := lineFeed_not_mem_splitLines List.not_mem_nil bytes
  rcases List.mem_append.mp member with member | member
  · exact complete line member
  · unfold lastLine at member
    split at member
    · contradiction
    · obtain rfl := List.mem_singleton.mp member
      simpa using last

end Text

end Reckoner
