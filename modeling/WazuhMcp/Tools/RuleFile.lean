import Mathlib.Data.List.Forall2
import Mathlib.Data.List.ReduceOption
import WazuhMcp.Foundations.Xml
import WazuhMcp.Tools.Write

/-!
# Rule files, read back

What the file of a rule says to an XML reader. `escape` and `quoteattr` write every character by a piece
that stands for it (`denotes_escapeChar`, `denotes_attrChar`), so no text of a rule leaves its element
and the file is read as the elements of the rule, in order, and nothing else (`ruleFileTree`).
-/

namespace WazuhMcp

open Xml (Node Reads Denotes Quotes Attributes Content isXmlChar normalizeLineEnds)

/-! ## What a rule is read as -/

/-- A text with its line ends normalized. -/
def lineEnds (s : String) : String := String.ofList (normalizeLineEnds s.toList)

/-- An element that contains a text. -/
def textElement (tag : String) (attrs : List (String × String)) (text : String) : Node :=
  .element tag attrs (Xml.textPart text.toList)

/-- The elements of a rule, each present if its field is. -/
def ruleElements (rule : RuleFields) : List Node :=
  [textElement "description" [] (lineEnds rule.description)] ++
    (rule.ifSid.map fun sids =>
      textElement "if_sid" [] (", ".intercalate (sids.map toString))).toList ++
    (rule.ifMatchedSid.map fun sid => textElement "if_matched_sid" [] (toString sid)).toList ++
    (rule.matchText.map fun s => textElement "match" [] (lineEnds s)).toList ++
    (rule.regex.map fun s => textElement "regex" [] (lineEnds s)).toList ++
    (rule.decodedAs.map fun s => textElement "decoded_as" [] (lineEnds s)).toList ++
    (rule.field.getD []).map (fun kv => textElement "field" [("name", kv.1)] (lineEnds kv.2)) ++
    (rule.srcip.map fun s => textElement "srcip" [] (lineEnds s)).toList ++
    (rule.programName.map fun s => textElement "program_name" [] (lineEnds s)).toList ++
    (rule.groups.map fun groups =>
      textElement "group" [] (lineEnds (",".intercalate groups ++ ","))).toList ++
    (rule.options.getD []).map (fun opt => textElement "options" [] opt.text)

/-- The element of a rule. -/
def ruleTree (rule : RuleFields) : Node :=
  .element "rule" [("id", toString rule.id), ("level", toString rule.level)] (ruleElements rule)

/-- The root of a rule's file. -/
def ruleFileTree (rule : RuleFields) : Node :=
  .element "group" [("name", "wazuh-mcp")] [ruleTree rule]

/-- The texts of the `group` elements in the rules of a file. -/
def groupTexts (file : Node) : List String :=
  ((file.children.flatMap Node.children).filter (Node.isNamed "group")).map Node.textOf

/-! ## Escaping -/

theorem xmlIllegal_eq_false_iff {c : Char} : xmlIllegal c = false ↔ isXmlChar c = true := by
  have hvalid : c.toNat < 0xd800 ∨ 0xdfff < c.toNat ∧ c.toNat < 0x110000 := c.valid
  simp only [xmlIllegal, isXmlChar, Bool.or_eq_false_iff, Bool.and_eq_false_iff,
    decide_eq_false_iff_not, Bool.or_eq_true, Bool.and_eq_true, decide_eq_true_eq]
  omega

theorem xmlLegal_iff {s : String} : xmlLegal s = true ↔ ∀ c ∈ s.toList, isXmlChar c = true := by
  simp only [xmlLegal, List.all_eq_true, Bool.not_eq_true', xmlIllegal_eq_false_iff]

/-- The characters of the references that `escape` and `quoteattr` write. -/
def referenceChars : List Char := "&#lgtampquo0139;".toList

theorem mem_referenceChars {piece : String}
    (hpiece : (piece.toList.all referenceChars.contains) = true) {d : Char} (h : d ∈ piece.toList) :
    d ∈ referenceChars := List.contains_iff_mem.mp (List.all_eq_true.mp hpiece d h)

theorem legal_of_all {s : String} (hs : s.toList.all isXmlChar = true) :
    ∀ c ∈ s.toList, isXmlChar c = true := List.all_eq_true.mp hs

theorem mem_escapeChar {c d : Char} (h : d ∈ escapeChar c) :
    (d = c ∧ c ≠ '<' ∧ c ≠ '>') ∨ d ∈ referenceChars := by
  unfold escapeChar at h
  split at h
  · exact Or.inr (mem_referenceChars (by decide) h)
  · exact Or.inr (mem_referenceChars (by decide) h)
  · exact Or.inr (mem_referenceChars (by decide) h)
  · next hamp hlt hgt =>
    exact Or.inl ⟨List.mem_singleton.mp h, hlt, hgt⟩

theorem mem_attrChar {c d : Char} (h : d ∈ attrChar c) : (d = c ∧ c ≠ '\r') ∨ d ∈ referenceChars := by
  unfold attrChar at h
  split at h
  · exact Or.inr (mem_referenceChars (by decide) h)
  · exact Or.inr (mem_referenceChars (by decide) h)
  · exact Or.inr (mem_referenceChars (by decide) h)
  · next hfeed hreturn htab =>
    exact (mem_escapeChar h).imp_left fun h => ⟨h.1, hreturn⟩

theorem mem_flatMap_escapeChar {cs : List Char} {d : Char} (h : d ∈ cs.flatMap escapeChar) :
    (d ∈ cs ∧ d ≠ '<' ∧ d ≠ '>') ∨ d ∈ referenceChars := by
  obtain ⟨c, hc, hd⟩ := List.mem_flatMap.mp h
  apply (mem_escapeChar hd).imp_left
  rintro ⟨rfl, hne⟩
  exact ⟨hc, hne⟩

theorem mem_flatMap_attrChar {cs : List Char} {d : Char} (h : d ∈ cs.flatMap attrChar) :
    (d ∈ cs ∧ d ≠ '\r') ∨ d ∈ referenceChars := by
  obtain ⟨c, hc, hd⟩ := List.mem_flatMap.mp h
  apply (mem_attrChar hd).imp_left
  rintro ⟨rfl, hne⟩
  exact ⟨hc, hne⟩

theorem denotes_escapeChar {literal : Char → Option Char} {c : Char}
    (hc : c ≠ '<' → literal c = some c) : Denotes literal (escapeChar c) c := by
  unfold escapeChar
  split
  · exact @Xml.denotes_reference literal ['a', 'm', 'p'] '&' (by decide) rfl
  · exact @Xml.denotes_reference literal ['l', 't'] '<' (by decide) rfl
  · exact @Xml.denotes_reference literal ['g', 't'] '>' (by decide) rfl
  · next hamp hlt hgt =>
    exact Xml.denotes_literal hamp (hc hlt)

theorem denotes_attrChar (c : Char) : Denotes Xml.attrLiteral (attrChar c) c := by
  unfold attrChar
  split
  · exact @Xml.denotes_reference _ ['#', '1', '0'] '\n' (by decide) (by decide)
  · exact @Xml.denotes_reference _ ['#', '1', '3'] '\r' (by decide) (by decide)
  · exact @Xml.denotes_reference _ ['#', '9'] '\t' (by decide) (by decide)
  · next hfeed hreturn htab =>
    apply denotes_escapeChar
    intro hlt
    by_cases hspace : c = ' '
    · rw [hspace]
      rfl
    · have hnot : Xml.isSpace c = false := by
        simp only [Xml.isSpace, Bool.or_eq_false_iff, decide_eq_false_iff_not]
        exact ⟨⟨⟨hspace, htab⟩, hreturn⟩, hfeed⟩
      rw [Xml.attrLiteral, if_neg hlt, hnot]
      rfl

/-- Line ends are written as they are. -/
theorem normalizeLineEnds_escape (cs : List Char) :
    normalizeLineEnds (cs.flatMap escapeChar) = (normalizeLineEnds cs).flatMap escapeChar := by
  apply Xml.normalizeLineEnds_flatMap rfl rfl
  · intro c
    unfold escapeChar
    split <;> simp
  · intro c hc hmem
    rcases mem_escapeChar hmem with ⟨h, -, -⟩ | h
    · exact hc h.symm
    · exact absurd h (by decide)
  · intro c hc hmem
    rcases mem_escapeChar hmem with ⟨h, -, -⟩ | h
    · exact hc h.symm
    · exact absurd h (by decide)

theorem legal_referenceChars : ∀ d ∈ referenceChars, isXmlChar d = true := legal_of_all (by decide)

/-- **An escaped text is read as the text**, with its line ends normalized, in whatever element. -/
theorem content_escape {tag text : String} (htext : ∀ c ∈ text.toList, isXmlChar c = true) :
    Content tag (text.toList.flatMap escapeChar) (Xml.textPart (lineEnds text).toList) := by
  apply Xml.content_text
  · intro d hd
    rcases mem_flatMap_escapeChar hd with ⟨hd, -⟩ | hd
    · exact htext d hd
    · exact legal_referenceChars d hd
  · intro hd
    rcases mem_flatMap_escapeChar hd with ⟨-, hlt, -⟩ | hd
    · exact hlt rfl
    · exact absurd hd (by decide)
  · intro hd
    rcases mem_flatMap_escapeChar hd with ⟨-, -, hgt⟩ | hd
    · exact hgt rfl
    · exact absurd hd (by decide)
  · rw [normalizeLineEnds_escape, lineEnds, String.toList_ofList]
    exact Xml.expand_flatMap fun c _ => denotes_escapeChar fun _ => rfl

/-! ## Quoting -/

/-- A character as `quoteattr` writes it when both quotes occur. -/
def quotChar (c : Char) : List Char := if c = '"' then "&quot;".toList else [c]

theorem quote_notMem_attrChar {c : Char} (hc : c ≠ '"') : '"' ∉ attrChar c := by
  intro h
  rcases mem_attrChar h with ⟨h, -⟩ | h
  · exact hc h.symm
  · exact absurd h (by decide)

theorem flatMap_quotChar {cs : List Char} (hcs : '"' ∉ cs) : cs.flatMap quotChar = cs := by
  induction cs with
  | nil => rfl
  | cons c cs ih =>
    rw [List.mem_cons, not_or] at hcs
    rw [List.flatMap_cons, ih hcs.2, quotChar, if_neg (Ne.symm hcs.1), List.singleton_append]

theorem denotes_quotChar (c : Char) : Denotes Xml.attrLiteral ((attrChar c).flatMap quotChar) c := by
  by_cases hc : c = '"'
  · rw [hc]
    exact @Xml.denotes_reference _ ['q', 'u', 'o', 't'] '"' (by decide) rfl
  · rw [flatMap_quotChar (quote_notMem_attrChar hc)]
    exact denotes_attrChar c

theorem quotes_quoteattr {value : String} (hvalue : ∀ c ∈ value.toList, isXmlChar c = true) :
    Quotes (quoteattr value).toList value := by
  have hlegal : ∀ d ∈ value.toList.flatMap attrChar, isXmlChar d = true := by
    intro d hd
    rcases mem_flatMap_attrChar hd with ⟨hd, -⟩ | hd
    · exact hvalue d hd
    · exact legal_referenceChars d hd
  have hreturn : '\r' ∉ value.toList.flatMap attrChar := by
    intro hd
    rcases mem_flatMap_attrChar hd with ⟨-, hr⟩ | hd
    · exact hr rfl
    · exact absurd hd (by decide)
  have hexpand : Xml.expand Xml.attrLiteral none (value.toList.flatMap attrChar) =
      some value.toList := Xml.expand_flatMap fun c _ => denotes_attrChar c
  dsimp only [quoteattr]
  split_ifs with hdouble hsingle
  · -- both quotes occur: `"` is written as a reference
    have hmem : ∀ d ∈ (value.toList.flatMap attrChar).flatMap quotChar,
        (d ∈ value.toList.flatMap attrChar ∧ d ≠ '"') ∨ d ∈ referenceChars := by
      intro d hd
      obtain ⟨c, hc, hd⟩ := List.mem_flatMap.mp hd
      unfold quotChar at hd
      split_ifs at hd with h
      · exact Or.inr (mem_referenceChars (by decide) hd)
      · rw [List.mem_singleton.mp hd]
        exact Or.inl ⟨hc, h⟩
    have h : Quotes ('"' :: ((value.toList.flatMap attrChar).flatMap quotChar ++ ['"'])) value := by
      apply Xml.quotes_of_expand (Or.inl rfl)
      · intro d hd
        rcases hmem d hd with ⟨hd, -⟩ | hd
        · exact hlegal d hd
        · exact legal_referenceChars d hd
      · intro hd
        rcases hmem _ hd with ⟨hd, -⟩ | hd
        · exact hreturn hd
        · exact absurd hd (by decide)
      · intro hd
        rcases hmem _ hd with ⟨-, hd⟩ | hd
        · exact hd rfl
        · exact absurd hd (by decide)
      · rw [List.flatMap_assoc]
        exact Xml.expand_flatMap fun c _ => denotes_quotChar c
    change Quotes ("\"" ++ String.ofList ((value.toList.flatMap attrChar).flatMap quotChar) ++
      "\"").toList value
    simpa using h
  · have h := Xml.quotes_of_expand (Or.inr rfl) hlegal hreturn (by simpa using hsingle) hexpand
    simpa using h
  · have h := Xml.quotes_of_expand (Or.inl rfl) hlegal hreturn (by simpa using hdouble) hexpand
    simpa using h

/-! ## The elements of a rule -/

/-- The text reads as one node. -/
def Written (s : String) (node : Node) : Prop := Reads s.toList [node]

theorem written_el {tag text : String} (htag : Xml.isName tag = true)
    (htext : ∀ c ∈ text.toList, isXmlChar c = true) :
    Written (el tag text) (textElement tag [] (lineEnds text)) := by
  have h := (content_escape htext).reads htag Attributes.nil
  simpa [Written, el, xmlEscape, Xml.openTag, Xml.closeTag, textElement] using h

theorem written_elWithAttr {tag attrName attrValue text : String} (htag : Xml.isName tag = true)
    (hname : Xml.isName attrName = true) (hvalue : ∀ c ∈ attrValue.toList, isXmlChar c = true)
    (htext : ∀ c ∈ text.toList, isXmlChar c = true) :
    Written (elWithAttr tag attrName attrValue text)
      (textElement tag [(attrName, attrValue)] (lineEnds text)) := by
  have hattrs := Attributes.cons hname (quotes_quoteattr hvalue) List.not_mem_nil Attributes.nil
  have h := (content_escape htext).reads htag hattrs
  simpa [Written, elWithAttr, xmlEscape, Xml.openTag, Xml.closeTag, textElement] using h

theorem reads_join {parts : List String} {nodes : List Node}
    (h : List.Forall₂ Written parts nodes) : Reads (String.join parts).toList nodes := by
  rw [String.toList_join]
  induction h with
  | nil => exact Reads.nil
  | cons h _ ih => exact h.append ih

theorem lineEnds_of_noReturn {s : String} (hs : '\r' ∉ s.toList) : lineEnds s = s := by
  rw [lineEnds, Xml.normalizeLineEnds_of_noReturn hs, String.ofList_toList]

/-- The decimal digits of a number. -/
theorem mem_toString_int {n : ℤ} {c : Char} (h : c ∈ (toString n).toList) :
    c.isDigit = true ∨ c = '-' := by
  have hnat : ∀ m : ℕ, c ∈ m.repr.toList → c.isDigit = true := by
    intro m hm
    rw [Nat.repr_eq_ofList_toDigits, String.toList_ofList] at hm
    exact Nat.isDigit_of_mem_toDigits (by decide) (by decide) hm
  rw [Int.toString_eq_repr, Int.repr_eq_if] at h
  split_ifs at h with hn
  · exact Or.inl (hnat _ h)
  · rw [String.toList_append, List.mem_append] at h
    rcases h with h | h
    · exact Or.inr (List.mem_singleton.mp h)
    · exact Or.inl (hnat _ h)

theorem legal_of_isDigit {c : Char} (h : c.isDigit = true ∨ c = '-') :
    isXmlChar c = true ∧ c ≠ '\r' := by
  rcases h with h | rfl
  · have hc : 48 ≤ c.toNat ∧ c.toNat ≤ 57 := by
      simp only [Char.isDigit, ge_iff_le, Bool.and_eq_true, decide_eq_true_eq,
        UInt32.le_iff_toNat_le] at h
      exact h
    refine ⟨?_, ?_⟩
    · simp only [isXmlChar, Bool.or_eq_true, Bool.and_eq_true, decide_eq_true_eq]
      omega
    · rintro rfl
      exact absurd hc (by decide)
  · decide

theorem legal_toString_int {n : ℤ} : ∀ c ∈ (toString n).toList, isXmlChar c = true :=
  fun _ hc => (legal_of_isDigit (mem_toString_int hc)).1

theorem mem_intercalate {sep : String} {parts : List String} {c : Char}
    (h : c ∈ (sep.intercalate parts).toList) : c ∈ sep.toList ∨ ∃ p ∈ parts, c ∈ p.toList := by
  induction parts with
  | nil =>
    rw [String.intercalate_nil] at h
    exact absurd h List.not_mem_nil
  | cons p parts ih =>
    by_cases hne : parts = []
    · rw [hne, String.intercalate_singleton] at h
      exact Or.inr ⟨p, List.mem_cons_self, h⟩
    · rw [String.intercalate_cons_of_ne_nil hne, String.toList_append, String.toList_append,
        List.mem_append, List.mem_append] at h
      rcases h with (h | h) | h
      · exact Or.inr ⟨p, List.mem_cons_self, h⟩
      · exact Or.inl h
      · apply (ih h).imp_right
        rintro ⟨q, hq, hc⟩
        exact ⟨q, List.mem_cons_of_mem _ hq, hc⟩

/-- What `if_sid` lists is written as it is. -/
theorem mem_sids {sids : List ℤ} {c : Char}
    (h : c ∈ (", ".intercalate (sids.map toString)).toList) : isXmlChar c = true ∧ c ≠ '\r' := by
  rcases mem_intercalate h with h | ⟨p, hp, h⟩
  · refine ⟨legal_of_all (by decide) c h, ?_⟩
    rintro rfl
    exact absurd h (by decide)
  · obtain ⟨n, -, rfl⟩ := List.mem_map.mp hp
    exact legal_of_isDigit (mem_toString_int h)

/-- What `render_rule_xml` writes between the tags of the rule. -/
def ruleParts (rule : RuleFields) : List String :=
  [el "description" rule.description] ++
    (rule.ifSid.map fun sids => el "if_sid" (", ".intercalate (sids.map toString))).toList ++
    (rule.ifMatchedSid.map fun sid => el "if_matched_sid" (toString sid)).toList ++
    (rule.matchText.map (el "match")).toList ++
    (rule.regex.map (el "regex")).toList ++
    (rule.decodedAs.map (el "decoded_as")).toList ++
    (rule.field.getD []).map (fun kv => elWithAttr "field" "name" kv.1 kv.2) ++
    (rule.srcip.map (el "srcip")).toList ++
    (rule.programName.map (el "program_name")).toList ++
    (rule.groups.map fun groups => el "group" (",".intercalate groups ++ ",")).toList ++
    (rule.options.getD []).map (fun opt => el "options" opt.text)

theorem renderRuleXml_eq (rule : RuleFields) :
    renderRuleXml rule = "<rule id=" ++ quoteattr (toString rule.id) ++ " level=" ++
      quoteattr (toString rule.level) ++ ">" ++ String.join (ruleParts rule) ++ "</rule>" := by
  simp only [renderRuleXml, ruleParts, List.append_assoc, List.singleton_append, String.join_cons,
    String.join_append, String.join_nil, String.append_empty, String.append_assoc]

theorem toList_ruleFileXml (rule : RuleFields) : (ruleFileXml rule).toList =
    Xml.openTag "group" (' ' :: ("name".toList ++ '=' :: ((quoteattr "wazuh-mcp").toList ++ []))) ++
      ((renderRuleXml rule).toList ++ Xml.closeTag "group") := by
  have hopen : "<group name=\"wazuh-mcp\">".toList = Xml.openTag "group"
      (' ' :: ("name".toList ++ '=' :: ((quoteattr "wazuh-mcp").toList ++ []))) := by decide
  have hclose : "</group>".toList = Xml.closeTag "group" := by decide
  unfold ruleFileXml
  rw [String.toList_append, String.toList_append, hopen, hclose, List.append_assoc]

theorem forall₂_option {α β γ : Type} {R : β → γ → Prop} {f : α → β} {g : α → γ} {o : Option α}
    (h : ∀ a ∈ o, R (f a) (g a)) : List.Forall₂ R (o.map f).toList (o.map g).toList := by
  cases o with
  | none => exact List.Forall₂.nil
  | some a => exact List.Forall₂.cons (h a rfl) List.Forall₂.nil

theorem forall₂_map {α β γ : Type} {R : β → γ → Prop} {f : α → β} {g : α → γ} {l : List α}
    (h : ∀ a ∈ l, R (f a) (g a)) : List.Forall₂ R (l.map f) (l.map g) := by
  rw [List.forall₂_map_left_iff, List.forall₂_map_right_iff, List.forall₂_same]
  exact h

namespace RuleDefinition

variable {compiles : String → Bool} (rule : RuleDefinition compiles)

/-- The texts of an admitted rule have no character that XML does not allow. -/
theorem legal {s : String} (hs : s ∈ rule.texts) : ∀ c ∈ s.toList, isXmlChar c = true := by
  have hvalid := rule.valid
  simp only [RuleFields.valid, Bool.and_eq_true, List.all_eq_true] at hvalid
  exact xmlLegal_iff.mp (hvalid.1.2 s hs)

theorem comma_notMem {groups : List String} (hgroups : rule.groups = some groups) {g : String}
    (hg : g ∈ groups) : ',' ∉ g.toList := by
  have hvalid := rule.valid
  simp only [RuleFields.valid, Bool.and_eq_true, List.all_eq_true, hgroups, Option.getD_some] at hvalid
  simpa using hvalid.2 g hg

theorem mem_texts {s : String} : s ∈ rule.texts ↔ s = rule.description ∨
    some s ∈ [rule.matchText, rule.regex, rule.decodedAs, rule.srcip, rule.programName] ∨
    (∃ kv ∈ rule.field.getD [], s = kv.1 ∨ s = kv.2) ∨ s ∈ rule.groups.getD [] := by
  simp [RuleFields.texts, List.reduceOption_mem_iff]

/-- An element for a text that may be missing. -/
theorem written_option {tag : String} (htag : Xml.isName tag = true) {o : Option String}
    (ho : o ∈ [rule.matchText, rule.regex, rule.decodedAs, rule.srcip, rule.programName]) :
    List.Forall₂ Written (o.map (el tag)).toList
      (o.map fun s => textElement tag [] (lineEnds s)).toList := by
  apply forall₂_option
  intro s hs
  rw [Option.mem_def.mp hs] at ho
  exact written_el htag (rule.legal (rule.mem_texts.mpr (Or.inr (Or.inl ho))))

theorem legal_groups {groups : List String} (hgroups : rule.groups = some groups) {c : Char}
    (hc : c ∈ (",".intercalate groups ++ ",").toList) : isXmlChar c = true := by
  have hcomma : ∀ d ∈ ",".toList, isXmlChar d = true := legal_of_all (by decide)
  rw [String.toList_append, List.mem_append] at hc
  rcases hc with hc | hc
  · rcases mem_intercalate hc with hc | ⟨g, hg, hc⟩
    · exact hcomma c hc
    · have hmem : g ∈ rule.groups.getD [] := by rwa [hgroups, Option.getD_some]
      exact rule.legal (rule.mem_texts.mpr (Or.inr (Or.inr (Or.inr hmem)))) c hc
  · exact hcomma c hc

/-- **Each part of a rule is read as its element.** -/
theorem written_parts :
    List.Forall₂ Written (ruleParts rule.toRuleFields) (ruleElements rule.toRuleFields) := by
  unfold ruleParts ruleElements
  refine List.rel_append (List.rel_append (List.rel_append (List.rel_append (List.rel_append
    (List.rel_append (List.rel_append (List.rel_append (List.rel_append (List.rel_append
      ?description ?ifSid) ?ifMatchedSid) ?matchText) ?regex) ?decodedAs) ?field) ?srcip)
      ?programName) ?groups) ?options
  case description =>
    refine List.Forall₂.cons (written_el rfl (rule.legal ?_)) List.Forall₂.nil
    exact rule.mem_texts.mpr (Or.inl rfl)
  case ifSid =>
    apply forall₂_option
    intro sids _
    have h := @written_el "if_sid" (", ".intercalate (sids.map toString)) rfl
      fun c hc => (mem_sids hc).1
    rwa [lineEnds_of_noReturn fun hc => (mem_sids hc).2 rfl] at h
  case ifMatchedSid =>
    apply forall₂_option
    intro sid _
    have h := @written_el "if_matched_sid" (toString sid) rfl legal_toString_int
    rwa [lineEnds_of_noReturn fun hc => (legal_of_isDigit (mem_toString_int hc)).2 rfl] at h
  case matchText => exact rule.written_option rfl (by simp)
  case regex => exact rule.written_option rfl (by simp)
  case decodedAs => exact rule.written_option rfl (by simp)
  case field =>
    apply forall₂_map
    intro kv hkv
    have hmem : ∀ s, s = kv.1 ∨ s = kv.2 → s ∈ rule.texts :=
      fun s hs => rule.mem_texts.mpr (Or.inr (Or.inr (Or.inl ⟨kv, hkv, hs⟩)))
    exact written_elWithAttr rfl rfl (rule.legal (hmem _ (Or.inl rfl)))
      (rule.legal (hmem _ (Or.inr rfl)))
  case srcip => exact rule.written_option rfl (by simp)
  case programName => exact rule.written_option rfl (by simp)
  case groups =>
    apply forall₂_option
    intro groups hgroups
    exact written_el rfl fun c hc => rule.legal_groups hgroups hc
  case options =>
    apply forall₂_map
    intro opt _
    have hlegal : opt.text.toList.all isXmlChar = true := by cases opt <;> decide
    have hreturn : '\r' ∉ opt.text.toList := by cases opt <;> decide
    have h := @written_el "options" opt.text rfl (legal_of_all hlegal)
    rwa [lineEnds_of_noReturn hreturn] at h

/-- **The file of an admitted rule is read as the elements of the rule and nothing else.** -/
theorem parse_ruleFileXml :
    Xml.parse (ruleFileXml rule.toRuleFields) = some (ruleFileTree rule.toRuleFields) := by
  have hid := quotes_quoteattr (@legal_toString_int rule.id)
  have hlevel := quotes_quoteattr (@legal_toString_int rule.level)
  have hattrs := Attributes.cons (show Xml.isName "id" = true from rfl) hid (by simp)
    (Attributes.cons (show Xml.isName "level" = true from rfl) hlevel List.not_mem_nil Attributes.nil)
  have hrule : Written (renderRuleXml rule.toRuleFields) (ruleTree rule.toRuleFields) := by
    have h := (reads_join rule.written_parts).content.reads (show Xml.isName "rule" = true from rfl)
      hattrs
    rw [renderRuleXml_eq]
    simpa [Written, Xml.openTag, Xml.closeTag, ruleTree] using h
  have hname : Quotes (quoteattr "wazuh-mcp").toList "wazuh-mcp" :=
    quotes_quoteattr (legal_of_all (by decide))
  have hgroup := Attributes.cons (show Xml.isName "name" = true from rfl) hname List.not_mem_nil
    Attributes.nil
  apply hrule.content.parse_eq (show Xml.isName "group" = true from rfl) hgroup
  exact toList_ruleFileXml rule.toRuleFields

end RuleDefinition

/-! ## The groups of a rule -/

theorem lineEnds_append_comma (s t : String) :
    lineEnds (s ++ "," ++ t) = lineEnds s ++ "," ++ lineEnds t := by
  have hcomma : ",".toList = [','] := by decide
  have hcons : normalizeLineEnds (',' :: t.toList) = ',' :: normalizeLineEnds t.toList :=
    Xml.normalizeLineEnds_cons (by decide) _
  have hhead : (',' :: t.toList).head? ≠ some '\n' := by simp
  rw [← String.toList_inj]
  simp only [lineEnds, String.toList_append, String.toList_ofList, hcomma, List.append_assoc,
    List.singleton_append]
  rw [Xml.normalizeLineEnds_append_of_head hhead, hcons]

/-- The separator is not part of a line end. -/
theorem lineEnds_intercalate (parts : List String) :
    lineEnds (",".intercalate parts) = ",".intercalate (parts.map lineEnds) := by
  induction parts with
  | nil =>
    rw [List.map_nil, String.intercalate_nil]
    rfl
  | cons p parts ih =>
    cases parts with
    | nil => rw [List.map_cons, List.map_nil, String.intercalate_singleton, String.intercalate_singleton]
    | cons q parts =>
      rw [String.intercalate_cons_cons, lineEnds_append_comma, ih]
      exact String.intercalate_cons_cons.symm

theorem comma_notMem_lineEnds {s : String} (hs : ',' ∉ s.toList) : ',' ∉ (lineEnds s).toList := by
  rw [lineEnds, String.toList_ofList]
  intro h
  rcases Xml.mem_of_mem_normalizeLineEnds h with h | h
  · exact absurd h (by decide)
  · exact hs h

/-- The separator at the end leaves an empty part behind the last group. -/
theorem split_groupText {groups : List String} (hne : groups ≠ [])
    (hcomma : ∀ g ∈ groups, ',' ∉ g.toList) :
    Text.split ',' (lineEnds (",".intercalate groups ++ ",")) = groups.map lineEnds ++ [""] := by
  have htext : ",".intercalate groups ++ "," = ",".intercalate (groups ++ [""]) := by
    rw [String.intercalate_append_of_ne_nil hne (List.cons_ne_nil _ _), String.intercalate_singleton,
      String.append_empty]
  have hjoin : ∀ parts : List String, ",".intercalate parts = Text.join ',' parts := by
    intro parts
    rw [← String.toList_inj, String.toList_intercalate, Text.join, String.toList_ofList,
      String.toList_ofList]
  rw [htext, lineEnds_intercalate, List.map_append, hjoin]
  apply Text.split_join
  · intro p hp
    rcases List.mem_append.mp hp with hp | hp
    · obtain ⟨g, hg, rfl⟩ := List.mem_map.mp hp
      exact comma_notMem_lineEnds (hcomma g hg)
    · rw [List.mem_singleton.mp hp]
      decide
  · simp

theorem textOf_textElement (tag : String) (attrs : List (String × String)) (text : String) :
    (textElement tag attrs text).textOf = text := by
  unfold Node.textOf textElement Node.children Xml.textPart
  split_ifs with h
  · rw [← String.ofList_toList (s := text), h]
    rfl
  · simp

theorem isNamed_textElement (name tag : String) (attrs : List (String × String)) (text : String) :
    (textElement tag attrs text).isNamed name = decide (tag = name) := rfl

theorem groupTexts_ruleFileTree (rule : RuleFields) : groupTexts (ruleFileTree rule) =
    (rule.groups.map fun groups => lineEnds (",".intercalate groups ++ ",")).toList := by
  have htree : (ruleFileTree rule).children.flatMap Node.children = ruleElements rule := by
    simp [ruleFileTree, ruleTree, Node.children]
  unfold groupTexts
  rw [htree]
  -- only one of the tags is `group`
  simp [ruleElements, Option.toList_map, List.filter_map, Function.comp_def, isNamed_textElement,
    textOf_textElement]

/-- **A rule is read back from its file, and nothing else is**: the file is the tree of the rule's
fields, whatever their texts, and the text of its groups splits into the groups and what follows the
trailing separator. -/
theorem rule_file_round_trip {compiles : String → Bool} (rule : RuleDefinition compiles) :
    Xml.parse (ruleFileXml rule.toRuleFields) = some (ruleFileTree rule.toRuleFields) ∧
      ∀ groups, rule.groups = some groups → groups ≠ [] →
        (groupTexts (ruleFileTree rule.toRuleFields)).map (Text.split ',') =
          [groups.map lineEnds ++ [""]] := by
  refine ⟨rule.parse_ruleFileXml, ?_⟩
  intro groups hgroups hne
  rw [groupTexts_ruleFileTree, hgroups, Option.map_some, Option.toList_some, List.map_singleton,
    split_groupText hne fun g hg => rule.comma_notMem hgroups hg]

/-- A rule whose texts try to leave their elements. -/
def intrudingRule : RuleDefinition fun _ => true where
  id := 100001
  level := 3
  description := "</description><ignore>"
  field := some [("\"'\n", "]]>\r\n&")]
  groups := some ["a", "b"]
  valid := by decide

theorem intrudingRule_round_trip :
    Xml.parse (ruleFileXml intrudingRule.toRuleFields) =
        some (ruleFileTree intrudingRule.toRuleFields) ∧
      (groupTexts (ruleFileTree intrudingRule.toRuleFields)).map (Text.split ',') =
        [["a", "b", ""]] := by
  obtain ⟨hparse, hgroups⟩ := rule_file_round_trip intrudingRule
  exact ⟨hparse, (hgroups ["a", "b"] rfl (by decide)).trans (by decide)⟩

/-- The groups are not all that the text of the `group` element splits into. -/
theorem intrudingRule_trailing_group : ¬ ∀ file,
    Xml.parse (ruleFileXml intrudingRule.toRuleFields) = some file →
      ∀ groups, intrudingRule.groups = some groups → groups ≠ [] →
        ∀ text ∈ groupTexts file, Text.split ',' text = groups.map lineEnds := by
  intro h
  have htext : "a,b," ∈ groupTexts (ruleFileTree intrudingRule.toRuleFields) := by
    rw [groupTexts_ruleFileTree]
    decide
  have hsplit := h _ intrudingRule.parse_ruleFileXml ["a", "b"] rfl (by decide) "a,b," htext
  exact absurd hsplit (by decide)

end WazuhMcp
