import DerivativeEngine.Proofs.Source.Lexing
import DerivativeEngine.Source.Parser

/-! The names that are read. An identifier is a letter with letters and digits after it, no longer
than the lexer keeps; the name it stands for is its upper case, which for these characters changes
nothing but small letters. So a name without small letters is read as itself. -/

namespace DerivativeEngine

open Token (isIdentStart isIdentPart)

structure IsIdentifier (cs : List Char) : Prop where
  letters : ∃ c rest, cs = c :: rest ∧ isIdentStart c = true ∧ ∀ c ∈ rest, isIdentPart c = true
  short : cs.length ≤ maxNameLength

def isSmall (c : Char) : Bool := 'a' ≤ c && c ≤ 'z'

/-- An identifier without small letters that is no constant. -/
structure IsName (name : String) : Prop where
  identifier : IsIdentifier name.toList
  capital : ∀ c ∈ name.toList, isSmall c = false
  notConstant : name ≠ "PI" ∧ name ≠ "E"

theorem IsIdentifier.part {cs : List Char} (h : IsIdentifier cs) :
    ∀ c ∈ cs, isIdentPart c = true := by
  obtain ⟨c, rest, rfl, start, part⟩ := h.letters
  intro c' hc
  rcases List.mem_cons.1 hc with rfl | hc
  · rw [isIdentPart, start, Bool.true_or]
  · exact part c' hc

theorem toUpper_part {c : Char} (h : isIdentPart c = true) :
    isIdentPart c.toUpper = true ∧ isSmall c.toUpper = false ∧
      (isIdentStart c = true → isIdentStart c.toUpper = true) ∧
      (isSmall c = false → c.toUpper = c) := by
  have ascii := Token.ascii_of_isIdentPart h
  revert h
  exact Token.of_ascii (p := fun c => isIdentPart c = true → isIdentPart c.toUpper = true ∧
    isSmall c.toUpper = false ∧ (isIdentStart c = true → isIdentStart c.toUpper = true) ∧
    (isSmall c = false → c.toUpper = c)) (by decide +kernel) ascii

theorem toList_upper {name : String} (h : IsIdentifier name.toList) :
    (Text.upper name).toList = name.toList.map Char.toUpper := by
  have single : ∀ cs : List Char, (∀ c ∈ cs, isIdentPart c = true) →
      cs.flatMap Text.upperChar = cs.map Char.toUpper := by
    intro cs part
    induction cs with
    | nil => rfl
    | cons c cs ih =>
      have ascii := Token.ascii_of_isIdentPart (part c List.mem_cons_self)
      have upper : Text.upperChar c = [c.toUpper] := if_pos ascii
      rw [List.flatMap_cons, ih fun c' hc => part c' (List.mem_cons_of_mem _ hc), upper]
      rfl
  rw [Text.upper, String.toList_ofList, single _ h.part]

theorem upper_of_isName {name : String} (h : IsName name) : Text.upper name = name := by
  apply String.toList_injective
  rw [toList_upper h.identifier]
  have unchanged : ∀ c ∈ name.toList, c.toUpper = id c := fun c hc =>
    (toUpper_part (h.identifier.part c hc)).2.2.2 (h.capital c hc)
  rw [List.map_congr_left unchanged, List.map_id]

theorem isName_upper {text : String} (h : IsIdentifier text.toList)
    (other : Text.upper text ≠ "PI" ∧ Text.upper text ≠ "E") : IsName (Text.upper text) where
  identifier := by
    rw [toList_upper h]
    obtain ⟨c, rest, hcs, start, part⟩ := h.letters
    refine ⟨⟨c.toUpper, rest.map Char.toUpper, by rw [hcs, List.map_cons], ?_, ?_⟩, ?_⟩
    · exact (toUpper_part (by rw [isIdentPart, start, Bool.true_or])).2.2.1 start
    · intro c' hc
      obtain ⟨c'', mem, rfl⟩ := List.mem_map.1 hc
      exact (toUpper_part (part c'' mem)).1
    · rw [List.length_map]
      exact h.short
  capital := by
    rw [toList_upper h]
    intro c hc
    obtain ⟨c', mem, rfl⟩ := List.mem_map.1 hc
    exact (toUpper_part (h.part c' mem)).2.1
  notConstant := other

namespace Token

theorem isIdentifier_of_scan {c : Char} {rest : List Char} {text : String} {n : Nat}
    (h : scan c rest = (some (.ident, text), n)) : IsIdentifier text.toList := by
  obtain ⟨start, name⟩ := text_of_scan_ident h
  rw [name]
  refine ⟨⟨c, (rest.takeWhile isIdentPart).take (maxNameLength - 1), rfl, start, ?_⟩, ?_⟩
  · intro c' hc
    exact List.all_eq_true.1 List.all_takeWhile c' (List.mem_of_mem_take hc)
  · rw [List.length_take]
    omega

theorem isIdentifier_of_mem {source : String} {tok : Token} (h : tok ∈ lexemes source)
    (kind : tok.kind = .ident) : IsIdentifier tok.text.toList := by
  obtain ⟨c, rest, n, scanned⟩ := scan_of_mem_ofChars h
  rw [kind] at scanned
  exact isIdentifier_of_scan scanned

end Token

end DerivativeEngine
