import Mathlib.Data.List.Infix

/-!
# The HTML tokenizer

The tokenizer of the HTML standard, for HTML content: from the characters of a
document to its tokens.  A step looks at one character and, where the standard
looks ahead, at those that follow; it may consume some of them.

The start tag of an element whose content is no markup (`title`, `style`, `script`
and their like) changes how the text after it is read.  Names of character
references are a parameter.  Duplicate attributes keep their first value, and a
document type keeps its text.

## Main definitions

* `References`, `reference` — character references
* `Token`, `State` — tokens, and the states of the tokenizer
* `step`, `run` — the tokenizer
* `tokenize` — the tokens of a document
-/

namespace Html

/-! ## Characters -/

/-- The blanks between the parts of a tag. -/
def isWhite (c : Char) : Bool := c = '\t' || c = '\n' || c = '\x0c' || c = ' '

/-- The replacement of a character that may not stand in a document. -/
def replacement : Char := Char.ofNat 0xfffd

/-- A null character is replaced. -/
def cleaned (c : Char) : Char := if c = '\x00' then replacement else c

/-- A character of a name: upper case letters of ASCII are lowered. -/
def lowered (c : Char) : Char := (cleaned c).toLower

/-- **Line ends** are single line feeds. -/
def normalize : List Char → List Char
  | [] => []
  | '\r' :: '\n' :: rest => '\n' :: normalize rest
  | '\r' :: rest => '\n' :: normalize rest
  | c :: rest => c :: normalize rest

/-! ## Character references -/

/-- The named character references: no name stands for more characters than it has. -/
structure References where
  named : List Char → Option (List Char)
  length_le : ∀ {name cs : List Char}, named name = some cs → cs.length ≤ name.length

/-- The characters that have a meaning of their own in a document. -/
def basicNames : List (List Char × List Char) :=
  [("amp;".toList, ['&']), ("amp".toList, ['&']), ("lt;".toList, ['<']), ("lt".toList, ['<']),
    ("gt;".toList, ['>']), ("gt".toList, ['>']), ("quot;".toList, ['"']), ("quot".toList, ['"'])]

/-- The references to these. -/
def References.basic : References where
  named name := (basicNames.find? fun e => e.1 = name).map Prod.snd
  length_le := by
    intro name cs h
    obtain ⟨e, hfind, rfl⟩ := Option.map_eq_some_iff.mp h
    have hname : e.1 = name := by simpa using List.find?_some hfind
    have hall : ∀ e ∈ basicNames, e.2.length ≤ e.1.length := by decide
    rw [← hname]
    exact hall e (List.mem_of_find?_eq_some hfind)

/-- What the codes of control characters stand for. -/
def windowsCodes : List (ℕ × ℕ) :=
  [(0x80, 0x20ac), (0x82, 0x201a), (0x83, 0x192), (0x84, 0x201e), (0x85, 0x2026),
    (0x86, 0x2020), (0x87, 0x2021), (0x88, 0x2c6), (0x89, 0x2030), (0x8a, 0x160),
    (0x8b, 0x2039), (0x8c, 0x152), (0x8e, 0x17d), (0x91, 0x2018), (0x92, 0x2019),
    (0x93, 0x201c), (0x94, 0x201d), (0x95, 0x2022), (0x96, 0x2013), (0x97, 0x2014),
    (0x98, 0x2dc), (0x99, 0x2122), (0x9a, 0x161), (0x9b, 0x203a), (0x9c, 0x153),
    (0x9e, 0x17e), (0x9f, 0x178)]

/-- The character of a numeric reference. -/
def ofCode (n : ℕ) : Char :=
  if n = 0 ∨ ¬n.isValidChar then replacement else Char.ofNat ((windowsCodes.lookup n).getD n)

/-- A hexadecimal digit. -/
def isHexDigit (c : Char) : Bool :=
  c.isDigit || ('a' ≤ c && c ≤ 'f') || ('A' ≤ c && c ≤ 'F')

/-- The value of a digit. -/
def digitValue (c : Char) : ℕ :=
  if c.isDigit then c.toNat - '0'.toNat else c.toLower.toNat - 'a'.toNat + 10

/-- A numeric reference after its marker: the character, and what follows. -/
def numericReference (base : ℕ) (isDigit : Char → Bool) (text : List Char) :
    Option (List Char × List Char) :=
  let digits := text.takeWhile isDigit
  let after := text.dropWhile isDigit
  if digits = [] then none
  else some ([ofCode (digits.foldl (fun n c => base * n + digitValue c) 0)],
    if after.head? = some ';' then after.tail else after)

/-- The letters and digits a name may be made of, with the semicolon after them. -/
def nameRun (text : List Char) : List Char :=
  let letters := text.takeWhile Char.isAlphanum
  if (text.dropWhile Char.isAlphanum).head? = some ';' then letters ++ [';'] else letters

/-- The longest name at the start of a text. -/
def namedReference (refs : References) (text : List Char) : Option (List Char × List Char) :=
  (List.range (nameRun text).length).reverse.findSome? fun k =>
    (refs.named ((nameRun text).take (k + 1))).map fun cs => (cs, text.drop (k + 1))

/-- **A character reference** after its ampersand: what it stands for, and what follows. -/
def reference (refs : References) (text : List Char) : Option (List Char × List Char) :=
  if text.head? = some '#' then
    if text.tail.head? = some 'x' ∨ text.tail.head? = some 'X' then
      numericReference 16 isHexDigit text.tail.tail
    else numericReference 10 Char.isDigit text.tail
  else namedReference refs text

/-! ## Tokens and states -/

/-- The attributes of a tag. -/
abbrev Attributes := List (List Char × List Char)

inductive Token
  | char (c : Char)
  | startTag (name : List Char) (attributes : Attributes) (selfClosing : Bool)
  | endTag (name : List Char)
  | comment (text : List Char)
  | doctype (text : List Char)
  deriving DecidableEq, Repr

/-- A tag that is being read. -/
structure Tag where
  closing : Bool
  name : List Char
  attributes : Attributes
  deriving DecidableEq

/-- Another attribute; a name that occurs again is dropped. -/
def Tag.add (tag : Tag) (name value : List Char) : Tag :=
  if name ∈ tag.attributes.map Prod.fst then tag
  else { tag with attributes := tag.attributes ++ [(name, value)] }

/-- How far a script is inside a comment. -/
inductive Escape
  | none | comment | script
  deriving DecidableEq

/-- The states: the five kinds of content, the parts of a tag, and markup without tags. -/
inductive State
  | data
  | rcdata (name : List Char)
  | rawtext (name : List Char)
  | script (escape : Escape)
  | plaintext
  | tagName (tag : Tag)
  | beforeAttributeName (tag : Tag)
  | attributeName (tag : Tag) (name : List Char)
  | afterAttributeName (tag : Tag) (name : List Char)
  | beforeAttributeValue (tag : Tag) (name : List Char)
  | quoted (quote : Char) (tag : Tag) (name value : List Char)
  | unquoted (tag : Tag) (name value : List Char)
  | selfClosing (tag : Tag)
  | comment (text : List Char)
  | bogusComment (text : List Char)
  | doctype (text : List Char)
  deriving DecidableEq

/-- The tokens of a step, the next state, and what is left to read. -/
abbrev Step := List Token × State × List Char

/-- How the content of an element is read. -/
def content (name : List Char) : State :=
  if name ∈ ["title".toList, "textarea".toList] then .rcdata name
  else if name ∈ ["style".toList, "xmp".toList, "iframe".toList, "noembed".toList,
      "noframes".toList] then .rawtext name
  else if name = "script".toList then .script .none
  else if name = "plaintext".toList then .plaintext
  else .data

/-- A tag that has been read. -/
def emit (tag : Tag) (selfClosing : Bool) (rest : List Char) : Step :=
  if tag.closing then ([.endTag tag.name], .data, rest)
  else ([.startTag tag.name tag.attributes selfClosing], content tag.name, rest)

/-! ## Text -/

/-- `<!`: a comment, a document type, or something else that is dropped as a comment. -/
def markupDeclaration (rest : List Char) : Step :=
  if "-->".toList <+: rest then ([.comment []], .data, rest.drop 3)
  else if "--->".toList <+: rest then ([.comment []], .data, rest.drop 4)
  else if "--".toList <+: rest then ([], .comment [], rest.drop 2)
  else if (rest.take 7).map lowered = "doctype".toList then ([], .doctype [], rest.drop 7)
  else ([], .bogusComment [], rest)

/-- `</`. -/
def endTagOpen : List Char → Step
  | [] => ([.char '<'], .data, ['/'])
  | d :: after =>
      if d = '>' then ([], .data, after)
      else if d.isAlpha then ([], .tagName ⟨true, [], []⟩, d :: after)
      else ([], .bogusComment [], d :: after)

/-- `<` where a tag may begin. -/
def tagOpen : List Char → Step
  | [] => ([.char '<'], .data, [])
  | d :: after =>
      if d = '!' then markupDeclaration after
      else if d = '/' then endTagOpen after
      else if d = '?' then ([], .bogusComment ['?'], after)
      else if d.isAlpha then ([], .tagName ⟨false, [], []⟩, d :: after)
      else ([.char '<'], .data, d :: after)

/-- `&` in text. -/
def ampersand (refs : References) (s : State) (rest : List Char) : Step :=
  match reference refs rest with
  | some (cs, rest') => (cs.map .char, s, rest')
  | none => ([.char '&'], s, rest)

def dataStep (refs : References) (c : Char) (rest : List Char) : Step :=
  if c = '&' then ampersand refs .data rest
  else if c = '<' then tagOpen rest
  else ([.char c], .data, rest)

/-- The text goes on with the word and the end of a tag's name. -/
def Names (name text : List Char) : Prop :=
  (text.take name.length).map lowered = name ∧
    (text.drop name.length).head?.any fun d => isWhite d || d = '/' || d = '>'

instance (name text : List Char) : Decidable (Names name text) :=
  inferInstanceAs (Decidable (_ ∧ _))

/-- `<` where only the end tag of the element is markup. -/
def onlyEndTag (name : List Char) (s : State) (rest : List Char) : Step :=
  if rest.head? = some '/' ∧ Names name rest.tail then
    ([], .tagName ⟨true, name, []⟩, rest.tail.drop name.length)
  else ([.char '<'], s, rest)

def rcdataStep (refs : References) (name : List Char) (c : Char) (rest : List Char) : Step :=
  if c = '&' then ampersand refs (.rcdata name) rest
  else if c = '<' then onlyEndTag name (.rcdata name) rest
  else ([.char (cleaned c)], .rcdata name, rest)

def rawtextStep (name : List Char) (c : Char) (rest : List Char) : Step :=
  if c = '<' then onlyEndTag name (.rawtext name) rest
  else ([.char (cleaned c)], .rawtext name, rest)

/-- The text of a script; inside a comment it may hold scripts of its own. -/
def scriptStep (escape : Escape) (c : Char) (rest : List Char) : Step :=
  match escape with
  | .none =>
      if c = '<' ∧ "!--".toList <+: rest then
        ([.char '<', .char '!'], .script .comment, rest.tail)
      else if c = '<' then onlyEndTag "script".toList (.script .none) rest
      else ([.char (cleaned c)], .script .none, rest)
  | .comment =>
      if c = '-' ∧ "->".toList <+: rest then
        ([.char '-', .char '-', .char '>'], .script .none, rest.drop 2)
      else if c = '<' ∧ Names "script".toList rest then ([.char '<'], .script .script, rest)
      else if c = '<' then onlyEndTag "script".toList (.script .comment) rest
      else ([.char (cleaned c)], .script .comment, rest)
  | .script =>
      if c = '-' ∧ "->".toList <+: rest then
        ([.char '-', .char '-', .char '>'], .script .none, rest.drop 2)
      else if c = '<' ∧ rest.head? = some '/' ∧ Names "script".toList rest.tail then
        ([.char '<'], .script .comment, rest)
      else ([.char (cleaned c)], .script .script, rest)

/-! ## Tags -/

def tagNameStep (tag : Tag) (c : Char) (rest : List Char) : Step :=
  if isWhite c then ([], .beforeAttributeName tag, rest)
  else if c = '/' then ([], .selfClosing tag, rest)
  else if c = '>' then emit tag false rest
  else ([], .tagName { tag with name := tag.name ++ [lowered c] }, rest)

def beforeAttributeNameStep (tag : Tag) (c : Char) (rest : List Char) : Step :=
  if isWhite c then ([], .beforeAttributeName tag, rest)
  else if c = '/' then ([], .selfClosing tag, rest)
  else if c = '>' then emit tag false rest
  else ([], .attributeName tag [lowered c], rest)

def attributeNameStep (tag : Tag) (name : List Char) (c : Char) (rest : List Char) : Step :=
  if isWhite c then ([], .afterAttributeName tag name, rest)
  else if c = '/' then ([], .selfClosing (tag.add name []), rest)
  else if c = '>' then emit (tag.add name []) false rest
  else if c = '=' then ([], .beforeAttributeValue tag name, rest)
  else ([], .attributeName tag (name ++ [lowered c]), rest)

def afterAttributeNameStep (tag : Tag) (name : List Char) (c : Char) (rest : List Char) : Step :=
  if isWhite c then ([], .afterAttributeName tag name, rest)
  else if c = '=' then ([], .beforeAttributeValue tag name, rest)
  else beforeAttributeNameStep (tag.add name []) c rest

/-- `&` in the value of an attribute: a name without semicolon is no reference where a letter,
a digit or an equals sign follows. -/
def valueAmpersand (refs : References) (rest : List Char) : List Char × List Char :=
  match reference refs rest with
  | some (cs, rest') =>
      if rest.head? ≠ some '#' ∧
          (rest.take (rest.length - rest'.length)).getLast? ≠ some ';' ∧
          rest'.head?.any fun d => d = '=' || d.isAlphanum then (['&'], rest)
      else (cs, rest')
  | none => (['&'], rest)

def quotedStep (refs : References) (quote : Char) (tag : Tag) (name value : List Char) (c : Char)
    (rest : List Char) : Step :=
  if c = quote then ([], .beforeAttributeName (tag.add name value), rest)
  else if c = '&' then
    ([], .quoted quote tag name (value ++ (valueAmpersand refs rest).1),
      (valueAmpersand refs rest).2)
  else ([], .quoted quote tag name (value ++ [cleaned c]), rest)

def unquotedStep (refs : References) (tag : Tag) (name value : List Char) (c : Char)
    (rest : List Char) : Step :=
  if isWhite c then ([], .beforeAttributeName (tag.add name value), rest)
  else if c = '>' then emit (tag.add name value) false rest
  else if c = '&' then
    ([], .unquoted tag name (value ++ (valueAmpersand refs rest).1), (valueAmpersand refs rest).2)
  else ([], .unquoted tag name (value ++ [cleaned c]), rest)

def beforeAttributeValueStep (refs : References) (tag : Tag) (name : List Char) (c : Char)
    (rest : List Char) : Step :=
  if isWhite c then ([], .beforeAttributeValue tag name, rest)
  else if c = '"' ∨ c = '\'' then ([], .quoted c tag name [], rest)
  else unquotedStep refs tag name [] c rest

def selfClosingStep (tag : Tag) (c : Char) (rest : List Char) : Step :=
  if c = '>' then emit tag true rest else beforeAttributeNameStep tag c rest

/-! ## Comments and document types -/

def commentStep (text : List Char) (c : Char) (rest : List Char) : Step :=
  if c = '-' ∧ "->".toList <+: rest then ([.comment text], .data, rest.drop 2)
  else if c = '-' ∧ "-!>".toList <+: rest then ([.comment text], .data, rest.drop 3)
  else ([], .comment (text ++ [cleaned c]), rest)

def bogusCommentStep (text : List Char) (c : Char) (rest : List Char) : Step :=
  if c = '>' then ([.comment text], .data, rest)
  else ([], .bogusComment (text ++ [cleaned c]), rest)

def doctypeStep (text : List Char) (c : Char) (rest : List Char) : Step :=
  if c = '>' then ([.doctype text], .data, rest)
  else ([], .doctype (text ++ [cleaned c]), rest)

/-! ## The tokenizer -/

/-- One character. -/
def step (refs : References) : State → Char → List Char → Step
  | .data => dataStep refs
  | .rcdata name => rcdataStep refs name
  | .rawtext name => rawtextStep name
  | .script escape => scriptStep escape
  | .plaintext => fun c rest => ([.char (cleaned c)], .plaintext, rest)
  | .tagName tag => tagNameStep tag
  | .beforeAttributeName tag => beforeAttributeNameStep tag
  | .attributeName tag name => attributeNameStep tag name
  | .afterAttributeName tag name => afterAttributeNameStep tag name
  | .beforeAttributeValue tag name => beforeAttributeValueStep refs tag name
  | .quoted quote tag name value => quotedStep refs quote tag name value
  | .unquoted tag name value => unquotedStep refs tag name value
  | .selfClosing tag => selfClosingStep tag
  | .comment text => commentStep text
  | .bogusComment text => bogusCommentStep text
  | .doctype text => doctypeStep text

/-- The end that a comment may be in the middle of. -/
def withoutEnd (text : List Char) : List Char :=
  if "--!".toList <:+ text then text.dropLast.dropLast.dropLast
  else if "--".toList <:+ text then text.dropLast.dropLast
  else if "-".toList <:+ text then text.dropLast
  else text

/-- The end of the document; a tag that is not complete is dropped. -/
def finish : State → List Token
  | .comment text => [.comment (withoutEnd text)]
  | .bogusComment text => [.comment text]
  | .doctype text => [.doctype text]
  | _ => []

/-- The tokens of a text, with at least as many steps as it has characters. -/
def run (refs : References) : ℕ → State → List Char → List Token
  | 0, s, _ => finish s
  | _ + 1, s, [] => finish s
  | n + 1, s, c :: rest =>
      (step refs s c rest).1 ++ run refs n (step refs s c rest).2.1 (step refs s c rest).2.2

/-- The tokens of a text read from a state. -/
def scan (refs : References) (s : State) (text : List Char) : List Token :=
  run refs text.length s text

/-- **The tokens of a document.** -/
def tokenize (refs : References) (document : List Char) : List Token :=
  scan refs .data (normalize document)

example : tokenize .basic "a&lt;<b x=\"1\">&".toList =
    [.char 'a', .char '<', .startTag ['b'] [(['x'], ['1'])] false, .char '&'] := by decide +kernel

end Html
