import WazuhMcp.Foundations.Dict
import WazuhMcp.Foundations.Text

/-!
# Rule definitions and their XML

A custom detection rule, with what its validators check, and the XML text it is rendered as. Every
string that a caller controls is escaped.
-/

namespace WazuhMcp

/-- A character that XML 1.0 does not allow, `_XML_ILLEGAL_CHARS`. -/
def xmlIllegal (c : Char) : Bool :=
  c.toNat ≤ 0x08 || c.toNat = 0x0b || c.toNat = 0x0c || (0x0e ≤ c.toNat && c.toNat ≤ 0x1f) ||
    c.toNat = 0xfffe || c.toNat = 0xffff

/-- Whether `_reject_xml_illegal` lets the text pass. -/
def xmlLegal (s : String) : Bool := s.toList.all (!xmlIllegal ·)

/-- An entry of `RuleDefinition.options`. -/
inductive RuleOption where
  | noLog
  | alertByEmail
  deriving DecidableEq, Repr

/-- The option as it is written in a rule. -/
def RuleOption.text : RuleOption → String
  | .noLog => "no_log"
  | .alertByEmail => "alert_by_email"

/-- The fields of `RuleDefinition`. -/
structure RuleFields where
  id : ℤ
  level : ℤ
  description : String
  ifSid : Option (List ℤ) := none
  ifMatchedSid : Option ℤ := none
  matchText : Option String := none
  regex : Option String := none
  decodedAs : Option String := none
  field : Option (Dict String String) := none
  srcip : Option String := none
  programName : Option String := none
  groups : Option (List String) := none
  options : Option (List RuleOption) := none
  deriving DecidableEq

namespace RuleFields

/-- The texts that `_check_xml_legal_chars` looks at. -/
def texts (r : RuleFields) : List String :=
  r.description :: [r.matchText, r.regex, r.decodedAs, r.srcip, r.programName].reduceOption ++
    (r.field.getD []).flatMap (fun kv => [kv.1, kv.2]) ++ r.groups.getD []

/-- What the validators of `RuleDefinition` check. `compiles` is whether `re.compile` accepts a
pattern. -/
def valid (compiles : String → Bool) (r : RuleFields) : Bool :=
  100000 ≤ r.id && r.id ≤ 999999 && 0 ≤ r.level && r.level ≤ 15 &&
    1 ≤ r.description.length && r.description.length ≤ 512 && r.regex.all compiles &&
    r.texts.all xmlLegal && (r.groups.getD []).all fun g => !g.toList.contains ','

end RuleFields

/-- `RuleDefinition` -/
structure RuleDefinition (compiles : String → Bool) extends RuleFields where
  valid : toRuleFields.valid compiles = true

/-! ## Rendering -/

/-- A character as `escape` writes it. -/
def escapeChar : Char → List Char
  | '&' => "&amp;".toList
  | '<' => "&lt;".toList
  | '>' => "&gt;".toList
  | c => [c]

/-- `escape(text)` -/
def xmlEscape (text : String) : String := String.ofList (text.toList.flatMap escapeChar)

/-- A character as `quoteattr` writes it, before it chooses the quotes. -/
def attrChar : Char → List Char
  | '\n' => "&#10;".toList
  | '\r' => "&#13;".toList
  | '\t' => "&#9;".toList
  | c => escapeChar c

/-- `quoteattr(value)` -/
def quoteattr (value : String) : String :=
  let data := value.toList.flatMap attrChar
  if data.contains '"' then
    if data.contains '\'' then
      "\"" ++ String.ofList (data.flatMap fun c => if c = '"' then "&quot;".toList else [c]) ++ "\""
    else
      "'" ++ String.ofList data ++ "'"
  else
    "\"" ++ String.ofList data ++ "\""

/-- `_el(tag, text)` -/
def el (tag text : String) : String := "<" ++ tag ++ ">" ++ xmlEscape text ++ "</" ++ tag ++ ">"

/-- `_el_with_attr(tag, attr_name, attr_value, text)` -/
def elWithAttr (tag attrName attrValue text : String) : String :=
  "<" ++ tag ++ " " ++ attrName ++ "=" ++ quoteattr attrValue ++ ">" ++ xmlEscape text ++
    "</" ++ tag ++ ">"

/-- `render_rule_xml(rule)` -/
def renderRuleXml (rule : RuleFields) : String :=
  String.join <|
    ["<rule id=" ++ quoteattr (toString rule.id) ++ " level=" ++ quoteattr (toString rule.level) ++
      ">"] ++
    [el "description" rule.description] ++
    (rule.ifSid.map fun sids => el "if_sid" (", ".intercalate (sids.map toString))).toList ++
    (rule.ifMatchedSid.map fun sid => el "if_matched_sid" (toString sid)).toList ++
    (rule.matchText.map (el "match")).toList ++
    (rule.regex.map (el "regex")).toList ++
    (rule.decodedAs.map (el "decoded_as")).toList ++
    (rule.field.getD []).map (fun kv => elWithAttr "field" "name" kv.1 kv.2) ++
    (rule.srcip.map (el "srcip")).toList ++
    (rule.programName.map (el "program_name")).toList ++
    (rule.groups.map fun groups => el "group" (",".intercalate groups ++ ",")).toList ++
    (rule.options.getD []).map (fun opt => el "options" opt.text) ++
    ["</rule>"]

end WazuhMcp
