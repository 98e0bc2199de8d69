import SymbolicQuery.Text.CharSet

/-! Names of sets of characters in patterns. Letter case, blanks, hyphens and underscores in a
name do not count, nor does a leading `is`. -/
namespace SymbolicQuery.Text.CharSet

def looseName (name : List Char) : String :=
  let kept := (name.filter fun c => c != ' ' && c != '-' && c != '_').map Char.toLower
  match kept with
  | 'i' :: 's' :: c :: rest => String.ofList (c :: rest)
  | kept => String.ofList kept

open Category in
def categoryGroups : List (List String × List Category) :=
  [(["c", "other"], [cc, cf, cn, co, cs]), (["cc", "control", "cntrl"], [cc]), (["cf", "format"], [cf]),
   (["cn", "unassigned"], [cn]), (["co", "privateuse"], [co]), (["cs", "surrogate"], [cs]),
   (["l", "letter"], [lu, ll, lt, lm, lo]), (["lc", "casedletter"], [lu, ll, lt]),
   (["lu", "uppercaseletter"], [lu]), (["ll", "lowercaseletter"], [ll]), (["lt", "titlecaseletter"], [lt]),
   (["lm", "modifierletter"], [lm]), (["lo", "otherletter"], [lo]),
   (["m", "mark", "combiningmark"], [mn, mc, me]), (["mn", "nonspacingmark"], [mn]),
   (["mc", "spacingmark"], [mc]), (["me", "enclosingmark"], [me]),
   (["n", "number"], [nd, nl, no]), (["nd", "decimalnumber", "digit"], [nd]), (["nl", "letternumber"], [nl]),
   (["no", "othernumber"], [no]),
   (["p", "punctuation", "punct"], [pc, pd, ps, pe, pi, pf, po]), (["pc", "connectorpunctuation"], [pc]),
   (["pd", "dashpunctuation"], [pd]), (["ps", "openpunctuation"], [ps]), (["pe", "closepunctuation"], [pe]),
   (["pi", "initialpunctuation"], [pi]), (["pf", "finalpunctuation"], [pf]), (["po", "otherpunctuation"], [po]),
   (["s", "symbol"], [sm, sc, sk, so]), (["sm", "mathsymbol"], [sm]), (["sc", "currencysymbol"], [sc]),
   (["sk", "modifiersymbol"], [sk]), (["so", "othersymbol"], [so]),
   (["z", "separator"], [zs, zl, zp]), (["zs", "spaceseparator"], [zs]), (["zl", "lineseparator"], [zl]),
   (["zp", "paragraphseparator"], [zp])]

def categoryNamed? (name : String) : Option CharSet :=
  if name = "any" then some full
  else if name = "ascii" then some (range 0 0x7f)
  else if name = "assigned" then some (complement (category .cn))
  else (categoryGroups.find? fun g => g.1.contains name).map fun g => ofCategories g.2

def propertyNamed? (name : String) : Option CharSet :=
  if name = "alphabetic" ∨ name = "alpha" then some alphabetic
  else if name = "uppercase" ∨ name = "upper" then some upper
  else if name = "lowercase" ∨ name = "lower" then some lower
  else if name = "whitespace" ∨ name = "wspace" ∨ name = "space" then some blank
  else if name = "cased" then some cased
  else if name = "caseignorable" then some caseIgnorable
  else if name = "graphemeextend" ∨ name = "grext" then some extending
  else none

def scriptNamed? (name : String) : Option CharSet :=
  (scriptNames.find? fun s => looseName s.1.toList == name || looseName s.2.toList == name).map
    fun s => script s.1

def named? (name : String) : Option CharSet :=
  ((propertyNamed? name).or (categoryNamed? name)).or (scriptNamed? name)

def described? (text : List Char) : Option CharSet :=
  let property (name value : List Char) : Option CharSet :=
    let name := looseName name
    if name = "gc" ∨ name = "generalcategory" then categoryNamed? (looseName value)
    else if name = "sc" ∨ name = "script" ∨ name = "scx" ∨ name = "scriptextensions" then
      scriptNamed? (looseName value)
    else none
  match text.span (fun c => c != '=' && c != ':' && c != '!') with
  | (name, []) => named? (looseName name)
  | (name, '!' :: '=' :: value) => (property name value).map complement
  | (name, '=' :: value) | (name, ':' :: value) => property name value
  | _ => none

def asciiNamed? (name : String) : Option CharSet :=
  let ranges? : Option (List (Char × Char)) := match name with
    | "alnum" => some [('0', '9'), ('A', 'Z'), ('a', 'z')]
    | "alpha" => some [('A', 'Z'), ('a', 'z')]
    | "ascii" => some [('\x00', '\x7f')]
    | "blank" => some [('\t', '\t'), (' ', ' ')]
    | "cntrl" => some [('\x00', '\x1f'), ('\x7f', '\x7f')]
    | "digit" => some [('0', '9')]
    | "graph" => some [('!', '~')]
    | "lower" => some [('a', 'z')]
    | "print" => some [(' ', '~')]
    | "punct" => some [('!', '/'), (':', '@'), ('[', '\x60'), ('\x7b', '~')]
    | "space" => some [('\t', '\r'), (' ', ' ')]
    | "upper" => some [('A', 'Z')]
    | "word" => some [('0', '9'), ('A', 'Z'), ('_', '_'), ('a', 'z')]
    | "xdigit" => some [('0', '9'), ('A', 'F'), ('a', 'f')]
    | _ => none
  ranges?.map ofRanges

end SymbolicQuery.Text.CharSet
