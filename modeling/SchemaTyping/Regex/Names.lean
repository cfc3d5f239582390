set_option autoImplicit false
set_option maxRecDepth 10000

/-! # Names of character properties

The properties of characters that an expression can name, each with all its names in the form that names
are compared in: small letters, without blanks, hyphens and underscores. Beside the names stands the size
of an automaton that recognises one character with the property, in bytes. -/

namespace SchemaTyping.Regex

/-- Properties by their names, and their sizes. -/
abbrev Names := List (List String × Nat)

/-- The values of the property `General_Category`, and three more names that may stand for one. -/
def generalCategories : Names :=
  [(["any"], 964), (["ascii"], 72), (["assigned"], 41128), (["c", "other"], 41780),
   (["cc", "control", "cntrl"], 204), (["cf", "format"], 1784), (["cn", "unassigned"], 41128),
   (["co", "privateuse"], 864), (["l", "letter"], 41352), (["lc", "casedletter"], 9404),
   (["ll", "lowercaseletter"], 27324), (["lm", "modifierletter"], 4776),
   (["lo", "otherletter"], 32764), (["lt", "titlecaseletter"], 552),
   (["lu", "uppercaseletter"], 26284), (["m", "mark", "combiningmark"], 18140),
   (["mc", "spacingmark"], 9924), (["me", "enclosingmark"], 468),
   (["mn", "nonspacingmark"], 18756), (["n", "number"], 9272),
   (["nd", "decimalnumber", "digit"], 4640), (["nl", "letternumber"], 1112),
   (["no", "othernumber"], 5100), (["p", "punctuation", "punct"], 11472),
   (["pc", "connectorpunctuation"], 540), (["pd", "dashpunctuation"], 1324),
   (["pe", "closepunctuation"], 3504), (["pf", "finalpunctuation"], 552),
   (["pi", "initialpunctuation"], 588), (["po", "otherpunctuation"], 10868),
   (["ps", "openpunctuation"], 3644), (["s", "symbol"], 15384), (["sc", "currencysymbol"], 1720),
   (["sk", "modifiersymbol"], 2020), (["sm", "mathsymbol"], 3860), (["so", "othersymbol"], 12748),
   (["z", "separator"], 608), (["zl", "lineseparator"], 164), (["zp", "paragraphseparator"], 164),
   (["zs", "spaceseparator"], 572)]

/-- The values of the properties `Script` and `Script_Extensions`. -/
def scripts : Names :=
  [(["adlm", "adlam"], 336), (["aghb", "caucasianalbanian"], 300), (["ahom"], 336),
   (["arab", "arabic"], 3544), (["armi", "imperialaramaic"], 232), (["armn", "armenian"], 440),
   (["avst", "avestan"], 232), (["bali", "balinese"], 268), (["bamu", "bamum"], 432),
   (["bass", "bassavah"], 232), (["batk", "batak"], 200), (["beng", "bengali"], 700),
   (["bhks", "bhaiksuki"], 372), (["bopo", "bopomofo"], 300), (["brah", "brahmi"], 336),
   (["brai", "braille"], 164), (["bugi", "buginese"], 200), (["buhd", "buhid"], 164),
   (["cakm", "chakma"], 300), (["cans", "canadianaboriginal"], 432), (["cari", "carian"], 264),
   (["cham"], 304), (["cher", "cherokee"], 436), (["chrs", "chorasmian"], 264),
   (["copt", "coptic", "qaac"], 336), (["cpmn", "cyprominoan"], 264), (["cprt", "cypriot"], 376),
   (["cyrl", "cyrillic"], 1244), (["deva", "devanagari"], 536), (["diak", "divesakuru"], 516),
   (["dogr", "dogra"], 196), (["dsrt", "deseret"], 264), (["dupl", "duployan"], 440),
   (["egyp", "egyptianhieroglyphs"], 264), (["elba", "elbasan"], 196), (["elym", "elymaic"], 196),
   (["ethi", "ethiopic"], 2016), (["gara", "garay"], 336), (["geor", "georgian"], 652),
   (["glag", "glagolitic"], 508), (["gong", "gunjalagondi"], 444),
   (["gonm", "masaramgondi"], 480), (["goth", "gothic"], 264), (["gran", "grantha"], 768),
   (["grek", "greek"], 2244), (["gujr", "gujarati"], 700), (["gukh", "gurungkhema"], 196),
   (["guru", "gurmukhi"], 772), (["hang", "hangul"], 1456), (["hani", "han"], 3448),
   (["hano", "hanunoo"], 164), (["hatr", "hatran"], 268), (["hebr", "hebrew"], 584),
   (["hira", "hiragana"], 740), (["hluw", "anatolianhieroglyphs"], 264),
   (["hmng", "pahawhhmong"], 476), (["hmnp", "nyiakengpuachuehmong"], 336),
   (["hung", "oldhungarian"], 300), (["ital", "olditalic"], 232), (["java", "javanese"], 304),
   (["kali", "kayahli"], 200), (["kana", "katakana"], 1220), (["kawi"], 336),
   (["khar", "kharoshthi"], 516), (["khmr", "khmer"], 372), (["khoj", "khojki"], 300),
   (["kits", "khitansmallscript"], 364), (["knda", "kannada"], 664), (["krai", "kiratrai"], 196),
   (["kthi", "kaithi"], 300), (["lana", "taitham"], 444), (["laoo", "lao"], 556),
   (["latn", "latin"], 2848), (["lepc", "lepcha"], 304), (["limb", "limbu"], 340),
   (["lina", "lineara"], 368), (["linb", "linearb"], 580), (["lisu"], 296),
   (["lyci", "lycian"], 196), (["lydi", "lydian"], 232), (["mahj", "mahajani"], 196),
   (["maka", "makasar"], 196), (["mand", "mandaic"], 200), (["mani", "manichaean"], 232),
   (["marc", "marchen"], 336), (["medf", "medefaidrin"], 264), (["mend", "mendekikakui"], 300),
   (["merc", "meroiticcursive"], 336), (["mero", "meroitichieroglyphs"], 196),
   (["mlym", "malayalam"], 448), (["modi"], 300), (["mong", "mongolian"], 540),
   (["mroo", "mro"], 268), (["mtei", "meeteimayek"], 268), (["mult", "multani"], 340),
   (["mymr", "myanmar"], 400), (["nagm", "nagmundari"], 196), (["nand", "nandinagari"], 336),
   (["narb", "oldnortharabian"], 196), (["nbat", "nabataean"], 232), (["newa"], 300),
   (["nkoo", "nko"], 168), (["nshu", "nushu"], 432), (["ogam", "ogham"], 164),
   (["olck", "olchiki"], 164), (["onao", "olonal"], 232), (["orkh", "oldturkic"], 264),
   (["orya", "oriya"], 700), (["osge", "osage"], 300), (["osma", "osmanya"], 232),
   (["ougr", "olduyghur"], 264), (["palm", "palmyrene"], 196), (["pauc", "paucinhau"], 196),
   (["perm", "oldpermic"], 196), (["phag", "phagspa"], 164),
   (["phli", "inscriptionalpahlavi"], 232), (["phlp", "psalterpahlavi"], 268),
   (["phnx", "phoenician"], 232), (["plrd", "miao"], 404),
   (["prti", "inscriptionalparthian"], 232), (["rjng", "rejang"], 268),
   (["rohg", "hanifirohingya"], 232), (["runr", "runic"], 268), (["samr", "samaritan"], 200),
   (["sarb", "oldsoutharabian"], 196), (["saur", "saurashtra"], 268),
   (["sgnw", "signwriting"], 336), (["shaw", "shavian"], 196), (["shrd", "sharada"], 264),
   (["sidd", "siddham"], 300), (["sind", "khudawadi"], 300), (["sinh", "sinhala"], 724),
   (["sogd", "sogdian"], 264), (["sogo", "oldsogdian"], 196), (["sora", "sorasompeng"], 232),
   (["soyo", "soyombo"], 264), (["sund", "sundanese"], 232), (["sunu", "sunuwar"], 232),
   (["sylo", "sylotinagri"], 164), (["syrc", "syriac"], 372), (["tagb", "tagbanwa"], 236),
   (["takr", "takri"], 264), (["tale", "taile"], 200), (["talu", "newtailue"], 340),
   (["taml", "tamil"], 940), (["tang", "tangut"], 600), (["tavt", "taiviet"], 268),
   (["telu", "telugu"], 664), (["tfng", "tifinagh"], 304), (["tglg", "tagalog"], 200),
   (["thaa", "thaana"], 132), (["thai"], 232), (["tibt", "tibetan"], 584),
   (["tirh", "tirhuta"], 300), (["tnsa", "tangsa"], 332), (["todr", "todhri"], 196),
   (["toto"], 196), (["tutg", "tulutigalari"], 624), (["ugar", "ugaritic"], 232),
   (["vaii", "vai"], 232), (["vith", "vithkuqi"], 516), (["wara", "warangciti"], 300),
   (["wcho", "wancho"], 232), (["xpeo", "oldpersian"], 300), (["xsux", "cuneiform"], 572),
   (["yezi", "yezidi"], 268), (["yiii", "yi"], 336), (["zanb", "zanabazarsquare"], 264),
   (["zinh", "inherited", "qaai"], 2408), (["zyyy", "common"], 12304)]

/-- The properties that a character has or has not. -/
def binaryProperties : Names :=
  [(["ahex", "asciihexdigit"], 88), (["alpha", "alphabetic"], 45404),
   (["bidic", "bidicontrol"], 336), (["bidim", "bidimirrored"], 5560), (["cased"], 10200),
   (["ci", "caseignorable"], 23728), (["cwcf", "changeswhencasefolded"], 24888),
   (["cwcm", "changeswhencasemapped"], 8296), (["cwl", "changeswhenlowercased"], 24292),
   (["cwt", "changeswhentitlecased"], 25104), (["cwu", "changeswhenuppercased"], 25172),
   (["dash"], 1564), (["dep", "deprecated"], 736), (["di", "defaultignorablecodepoint"], 1476),
   (["dia", "diacritic"], 12404), (["ebase", "emojimodifierbase"], 2144),
   (["ecomp", "emojicomponent"], 908), (["emod", "emojimodifier"], 196), (["emoji"], 7660),
   (["epres", "emojipresentation"], 4856), (["ext", "extender"], 2500),
   (["extpict", "extendedpictographic"], 5072), (["grbase", "graphemebase"], 53956),
   (["grext", "graphemeextend"], 19532), (["grlink", "graphemelink"], 2000),
   (["hex", "hexdigit"], 376), (["hyphen"], 840), (["idc", "idcontinue"], 47760),
   (["idcompatmathcontinue"], 1096), (["idcompatmathstart"], 820),
   (["ideo", "ideographic"], 3744), (["ids", "idstart"], 41488),
   (["idsb", "idsbinaryoperator"], 200), (["idst", "idstrinaryoperator"], 164),
   (["idsu", "idsunaryoperator"], 164), (["joinc", "joincontrol"], 164),
   (["loe", "logicalorderexception"], 540), (["lower", "lowercase"], 27952), (["math"], 7068),
   (["mcm", "modifiercombiningmark"], 516), (["nchar", "noncharactercodepoint"], 1992),
   (["oalpha", "otheralphabetic"], 2000), (["odi", "otherdefaultignorablecodepoint"], 2000),
   (["ogrext", "othergraphemeextend"], 2000), (["oidc", "otheridcontinue"], 2000),
   (["oids", "otheridstart"], 2000), (["olower", "otherlowercase"], 2000),
   (["omath", "othermath"], 2000), (["oupper", "otheruppercase"], 2000),
   (["patsyn", "patternsyntax"], 1792), (["patws", "patternwhitespace"], 340),
   (["pcm", "prependedconcatenationmark"], 636), (["qmark", "quotationmark"], 852),
   (["radical"], 404), (["ri", "regionalindicator"], 196), (["sd", "softdotted"], 2248),
   (["sterm", "sentenceterminal"], 5348), (["term", "terminalpunctuation"], 6900),
   (["uideo", "unifiedideograph"], 2604), (["upper", "uppercase"], 26764),
   (["vs", "variationselector"], 500), (["wspace", "whitespace", "space"], 680),
   (["xidc", "xidcontinue"], 48148), (["xids", "xidstart"], 41876)]

/-- The values of the property `Grapheme_Cluster_Break`. -/
def graphemeClusterBreaks : Names :=
  [(["cn", "control"], 1556), (["cr"], 72), (["ex", "extend"], 19632), (["l"], 332), (["lf"], 72),
   (["lv"], 20156), (["lvt"], 25556), (["pp", "prepend"], 1180),
   (["ri", "regionalindicator"], 196), (["sm", "spacingmark"], 9312), (["t"], 332), (["v"], 400),
   (["zwj"], 164)]

/-- The values of the property `Word_Break`. -/
def wordBreaks : Names :=
  [(["cr"], 72), (["dq", "doublequote"], 72), (["ex", "extendnumlet"], 576), (["extend"], 18512),
   (["fo", "format"], 1680), (["hl", "hebrewletter"], 552), (["ka", "katakana"], 1288),
   (["le", "aletter"], 35008), (["lf"], 72), (["mb", "midnumlet"], 440),
   (["ml", "midletter"], 708), (["mn", "midnum"], 920), (["nl", "newline"], 268),
   (["nu", "numeric"], 4676), (["ri", "regionalindicator"], 196), (["sq", "singlequote"], 72),
   (["wsegspace"], 504), (["zwj"], 164)]

/-- The values of the property `Sentence_Break`. -/
def sentenceBreaks : Names :=
  [(["at", "aterm"], 368), (["cl", "close"], 2584), (["cr"], 72), (["ex", "extend"], 18412),
   (["fo", "format"], 1716), (["le", "oletter"], 34536), (["lf"], 72), (["lo", "lower"], 27880),
   (["nu", "numeric"], 4676), (["sc", "scontinue"], 1196), (["se", "sep"], 232), (["sp"], 644),
   (["st", "sterm"], 5240), (["up", "upper"], 26768)]

/-- The values of the property `Age`. The sizes are those of all characters that have been assigned. -/
def ages : Names :=
  [(["1.1", "v11"], 41128), (["2.0", "v20"], 41128), (["2.1", "v21"], 41128),
   (["3.0", "v30"], 41128), (["3.1", "v31"], 41128), (["3.2", "v32"], 41128),
   (["4.0", "v40"], 41128), (["4.1", "v41"], 41128), (["5.0", "v50"], 41128),
   (["5.1", "v51"], 41128), (["5.2", "v52"], 41128), (["6.0", "v60"], 41128),
   (["6.1", "v61"], 41128), (["6.2", "v62"], 41128), (["6.3", "v63"], 41128),
   (["7.0", "v70"], 41128), (["8.0", "v80"], 41128), (["9.0", "v90"], 41128),
   (["10.0", "v100"], 41128), (["11.0", "v110"], 41128), (["12.0", "v120"], 41128),
   (["12.1", "v121"], 41128), (["13.0", "v130"], 41128), (["14.0", "v140"], 41128),
   (["15.0", "v150"], 41128), (["15.1", "v151"], 41128), (["16.0", "v160"], 41128)]

end SchemaTyping.Regex
