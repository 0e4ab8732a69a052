/-!
# Names of character properties

A property class names a general category, a script or a binary property, or a property and one
of its values. Names are compared without case, spaces, hyphens, underscores and a leading "is".
-/

namespace AwkStartup
namespace Pattern
namespace Property

/-- General categories of characters, in long and short form, and the classes of any, assigned
and ASCII characters. -/
def generalCategories : List String := [
  "other", "c", "control", "cc", "cntrl", "format", "cf", "unassigned", "cn", "privateuse", "co",
  "letter", "l", "casedletter", "lc", "lowercaseletter", "ll",
  "modifierletter", "lm", "otherletter", "lo", "titlecaseletter", "lt", "uppercaseletter", "lu",
  "mark", "m", "combiningmark", "spacingmark", "mc", "enclosingmark", "me", "nonspacingmark",
  "mn", "number", "n", "decimalnumber", "nd", "digit", "letternumber", "nl", "othernumber", "no",
  "punctuation", "p", "punct", "connectorpunctuation", "pc", "dashpunctuation", "pd",
  "closepunctuation", "pe", "finalpunctuation", "pf", "initialpunctuation", "pi",
  "otherpunctuation", "po", "openpunctuation", "ps", "symbol", "s", "currencysymbol", "sc",
  "modifiersymbol", "sk", "mathsymbol", "sm", "othersymbol", "so", "separator", "z",
  "lineseparator", "zl", "paragraphseparator", "zp", "spaceseparator", "zs", "any", "assigned",
  "ascii"]

def binaryProperties : List String := [
  "asciihexdigit", "ahex", "alphabetic", "alpha", "bidicontrol", "bidic", "bidimirrored", "bidim",
  "caseignorable", "ci", "cased", "changeswhencasefolded", "cwcf", "changeswhencasemapped",
  "cwcm", "changeswhenlowercased", "cwl", "changeswhentitlecased", "cwt", "changeswhenuppercased",
  "cwu", "dash", "defaultignorablecodepoint", "di", "deprecated", "dep", "diacritic", "dia",
  "emoji", "emojicomponent", "ecomp", "emojimodifier", "emod", "emojimodifierbase", "ebase",
  "emojipresentation", "epres", "extendedpictographic", "extpict", "extender", "ext",
  "graphemebase", "grbase", "graphemeextend", "grext", "hexdigit", "hex", "idcontinue", "idc",
  "idstart", "ids", "ideographic", "ideo", "idsbinaryoperator", "idsb", "idstrinaryoperator",
  "idst", "idsunaryoperator", "idsu", "idcompatmathcontinue", "idcompatmathstart",
  "modifiercombiningmark", "mcm", "joincontrol", "joinc", "logicalorderexception", "loe", "lowercase", "lower", "math",
  "noncharactercodepoint", "nchar", "patternsyntax", "patsyn", "patternwhitespace", "patws",
  "prependedconcatenationmark", "pcm", "quotationmark", "qmark", "radical", "regionalindicator",
  "ri", "sentenceterminal", "sterm", "softdotted", "sd", "terminalpunctuation", "term",
  "unifiedideograph", "uideo", "uppercase", "upper", "variationselector", "vs", "whitespace",
  "wspace", "space", "xidcontinue", "xidc", "xidstart", "xids"]

def scripts : List String := [
  "adlam", "adlm", "aghb", "ahom", "anatolianhieroglyphs", "hluw", "arab", "arabic", "armenian",
  "armi", "armn", "avestan", "avst", "bali", "balinese", "bamu", "bamum", "bass", "bassavah",
  "batak", "batk", "beng", "bengali", "bhaiksuki", "bhks", "bopo", "bopomofo", "brah", "brahmi",
  "brai", "braille", "bugi", "buginese", "buhd", "buhid", "cakm", "canadianaboriginal", "cans",
  "cari", "carian", "caucasianalbanian", "chakma", "cham", "cher", "cherokee", "chorasmian",
  "chrs", "common", "copt", "coptic", "qaac", "cpmn", "cprt", "cuneiform", "cypriot",
  "cyprominoan", "cyrillic", "cyrl", "deseret", "deva", "devanagari", "diak", "divesakuru",
  "dogr", "dogra", "dsrt", "dupl", "duployan", "egyp", "egyptianhieroglyphs", "elba", "elbasan",
  "elym", "elymaic", "ethi", "ethiopic", "gara", "garay", "geor", "georgian", "glag",
  "glagolitic", "gong", "gonm", "goth", "gothic", "gran", "grantha", "greek", "grek", "gujarati",
  "gujr", "gukh", "gunjalagondi", "gurmukhi", "guru", "gurungkhema", "han", "hang", "hangul",
  "hani", "hano", "hanunoo", "hatr", "hatran", "hebr", "hebrew", "hira", "hiragana", "hmng",
  "hmnp", "hung", "imperialaramaic", "inherited", "zinh", "qaai", "inscriptionalpahlavi",
  "inscriptionalparthian", "ital", "java", "javanese", "kaithi", "kali", "kana", "kannada",
  "katakana", "kawi", "kayahli", "khar", "kharoshthi", "khitansmallscript",
  "khmer", "khmr", "khoj", "khojki", "khudawadi", "kiratrai", "kits", "knda", "krai", "kthi",
  "lana", "lao", "laoo", "latin", "latn", "lepc", "lepcha", "limb", "limbu", "lina", "linb",
  "lineara", "linearb", "lisu", "lyci", "lycian", "lydi", "lydian", "mahajani", "mahj", "maka",
  "makasar", "malayalam", "mand", "mandaic", "mani", "manichaean", "marc", "marchen",
  "masaramgondi", "medefaidrin", "medf", "meeteimayek", "mend", "mendekikakui", "merc", "mero",
  "meroiticcursive", "meroitichieroglyphs", "miao", "plrd", "mlym", "modi", "mong", "mongolian",
  "mro", "mroo", "mtei", "mult", "multani", "myanmar", "mymr", "nabataean", "nagm", "nagmundari",
  "nand", "nandinagari", "narb", "nbat", "newa", "newtailue", "nko", "nkoo", "nshu", "nushu",
  "nyiakengpuachuehmong", "ogam", "ogham", "olchiki", "olck", "oldhungarian", "olditalic",
  "oldnortharabian", "oldpermic", "oldpersian", "oldsogdian", "oldsoutharabian", "oldturkic",
  "olduyghur", "olonal", "onao", "oriya", "orkh", "orya", "osage", "osge", "osma", "osmanya",
  "ougr", "pahawhhmong", "palm", "palmyrene", "pauc", "paucinhau", "perm", "phag", "phagspa",
  "phli", "phlp", "phnx", "phoenician", "prti", "psalterpahlavi", "rejang", "rjng", "rohg",
  "hanifirohingya", "runic", "runr", "samaritan", "samr", "sarb", "saur", "saurashtra", "sgnw",
  "sharada", "shavian", "shaw", "shrd", "sidd", "siddham", "signwriting", "sind", "sinh",
  "sinhala", "sogd", "sogdian", "sogo", "sora", "sorasompeng", "soyo", "soyombo", "sund",
  "sundanese", "sunu", "sunuwar", "sylo", "sylotinagri", "syrc", "syriac", "tagalog", "tagb",
  "tagbanwa", "taile", "taitham", "taiviet", "takr", "takri", "tale", "talu", "tamil", "taml",
  "tang", "tangsa", "tangut", "tavt", "telu", "telugu", "tfng", "tglg", "thaa", "thaana", "thai",
  "tibetan", "tibt", "tifinagh", "tirh", "tirhuta", "tnsa", "todhri", "todr", "toto",
  "tulutigalari", "tutg", "ugar", "ugaritic", "vai", "vaii", "vith",
  "vithkuqi", "wancho", "wara", "warangciti", "wcho", "xpeo", "xsux", "yezi", "yezidi", "yi",
  "yiii", "zanb", "zanabazarsquare", "zyyy"]

/-- Versions of the character set, in short and long form. -/
def ages : List String := [
  "1.1", "2.0", "2.1", "3.0", "3.1", "3.2", "4.0", "4.1", "5.0", "5.1", "5.2", "6.0", "6.1",
  "6.2", "6.3", "7.0", "8.0", "9.0", "10.0", "11.0", "12.0", "12.1", "13.0", "14.0", "15.0",
  "15.1", "16.0", "v11", "v20", "v21", "v30", "v31", "v32", "v40", "v41", "v50", "v51", "v52",
  "v60", "v61", "v62", "v63", "v70", "v80", "v90", "v100", "v110", "v120", "v121", "v130", "v140",
  "v150", "v151", "v160"]

def graphemeBreaks : List String := [
  "cr", "control", "cn", "extend", "ex", "l", "lf", "lv", "lvt", "prepend", "pp",
  "regionalindicator", "ri", "spacingmark", "sm", "t", "v", "zwj"]

def wordBreaks : List String := [
  "aletter", "le", "cr", "doublequote", "dq", "extend", "extendnumlet", "ex", "format", "fo",
  "hebrewletter", "hl", "katakana", "ka", "lf", "midletter", "ml", "midnum", "mn", "midnumlet",
  "mb", "newline", "nl", "numeric", "nu", "regionalindicator", "ri", "singlequote", "sq",
  "wsegspace", "zwj"]

def sentenceBreaks : List String := [
  "aterm", "at", "cr", "close", "cl", "extend", "ex", "format", "fo", "lf", "lower", "lo",
  "numeric", "nu", "oletter", "le", "scontinue", "sc", "sterm", "st", "sep", "se", "sp", "upper",
  "up"]

def normalize (name : List Char) : List Char :=
  let stripped : List Char :=
    match name with
    | i :: s :: rest => if i.toLower = 'i' ∧ s.toLower = 's' then rest else name
    | _ => name
  let kept : List Char :=
    (stripped.filter fun c => c.toNat < 128 && c != ' ' && c != '_' && c != '-').map Char.toLower
  if kept = ['c'] ∧ stripped ≠ name then ['i', 's', 'c'] else kept

def isOneOf (names : List String) (name : List Char) : Bool :=
  names.contains (String.ofList name)

def isClass (name : List Char) : Bool :=
  let n := normalize name
  isOneOf binaryProperties n || isOneOf generalCategories n || isOneOf scripts n

def hasValue (property value : List Char) : Bool :=
  let p := String.ofList (normalize property)
  let v := normalize value
  if p = "gc" ∨ p = "generalcategory" then isOneOf generalCategories v
  else if p = "sc" ∨ p = "script" ∨ p = "scx" ∨ p = "scriptextensions" then isOneOf scripts v
  else if p = "age" then isOneOf ages v
  else if p = "gcb" ∨ p = "graphemeclusterbreak" then isOneOf graphemeBreaks v
  else if p = "wb" ∨ p = "wordbreak" then isOneOf wordBreaks v
  else if p = "sb" ∨ p = "sentencebreak" then isOneOf sentenceBreaks v
  else false

/-- The parts of `name!=value`, `name:value` or `name=value`. -/
def splitQuery? : List Char → Option (List Char × List Char)
  | [] => none
  | '!' :: '=' :: s => some ([], s)
  | ':' :: s => some ([], s)
  | '=' :: s => some ([], s)
  | c :: s => (splitQuery? s).map fun (name, value) => (c :: name, value)

/-- Whether the text between the braces of a property class names one. -/
def accepts (query : List Char) : Bool :=
  match splitQuery? query with
  | some (property, value) => hasValue property value
  | none => isClass query

/-- Whether a single character names a general category. -/
def acceptsLetter (c : Char) : Bool :=
  isOneOf generalCategories (normalize [c])

end Property
end Pattern
end AwkStartup
