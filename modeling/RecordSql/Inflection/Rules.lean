import RecordSql.Inflection.Pattern
/-!
The words and endings of English inflection: irregular pairs, words that have one form, and the
rules for all others. Of the rules the last that fits decides.
-/

namespace RecordSql.Inflection

/-- Irregular nouns and pronouns, singular and plural. -/
def irregular : List (String × String) :=
  [
    ("I", "we"), ("me", "us"), ("he", "they"), ("she", "they"), ("them", "them"),
    ("myself", "ourselves"), ("yourself", "yourselves"), ("itself", "themselves"),
    ("herself", "themselves"), ("himself", "themselves"), ("themself", "themselves"),
    ("is", "are"), ("was", "were"), ("has", "have"), ("this", "these"), ("that", "those"),
    ("my", "our"), ("its", "their"), ("his", "their"), ("her", "their"), ("echo", "echoes"),
    ("dingo", "dingoes"), ("volcano", "volcanoes"), ("tornado", "tornadoes"),
    ("torpedo", "torpedoes"), ("genus", "genera"), ("viscus", "viscera"), ("stigma", "stigmata"),
    ("stoma", "stomata"), ("dogma", "dogmata"), ("lemma", "lemmata"), ("schema", "schemata"),
    ("anathema", "anathemata"), ("ox", "oxen"), ("axe", "axes"), ("die", "dice"),
    ("yes", "yeses"), ("foot", "feet"), ("eave", "eaves"), ("goose", "geese"),
    ("tooth", "teeth"), ("quiz", "quizzes"), ("human", "humans"), ("proof", "proofs"),
    ("carve", "carves"), ("valve", "valves"), ("looey", "looies"), ("thief", "thieves"),
    ("groove", "grooves"), ("pickaxe", "pickaxes"), ("passerby", "passersby"),
    ("canvas", "canvases")
  ]

/-- Words whose singular is their plural. -/
def uncountable : List String :=
  [
    "adulthood", "advice", "agenda", "aid", "aircraft", "alcohol", "ammo", "analytics", "anime",
    "athletics", "audio", "bison", "blood", "bream", "buffalo", "butter", "carp", "cash",
    "chassis", "chess", "clothing", "cod", "commerce", "cooperation", "corps", "debris",
    "diabetes", "digestion", "elk", "energy", "equipment", "excretion", "expertise", "firmware",
    "flounder", "fun", "gallows", "garbage", "graffiti", "hardware", "headquarters", "health",
    "herpes", "highjinks", "homework", "housework", "information", "jeans", "justice", "kudos",
    "labour", "literature", "machinery", "mackerel", "mail", "media", "mews", "moose", "music",
    "mud", "manga", "news", "only", "personnel", "pike", "plankton", "pliers", "police",
    "pollution", "premises", "rain", "research", "rice", "salmon", "scissors", "series",
    "sewage", "shambles", "shrimp", "software", "staff", "swine", "tennis", "traffic",
    "transportation", "trout", "tuna", "wealth", "welfare", "whiting", "wildebeest", "wildlife",
    "you"
  ]

/-- Endings of words whose singular is their plural. -/
def uncountableEndings : List Pattern :=
  [
    .all [.text "pok", .oneOf "eé", .text "mon", .finish],
    .all [.noneOf "aeiou", .text "ese", .finish],
    .all [.text "deer", .finish],
    .all [.text "fish", .finish],
    .all [.text "measles", .finish],
    .all [.text "o", .oneOf "iu", .text "s", .finish],
    .all [.text "pox", .finish],
    .all [.text "sheep", .finish]
  ]

/-- Endings and what makes the plural of them. -/
def pluralEndings : List (Pattern × String) :=
  [
    (.all [.opt (.text "s"), .finish], "s"),
    (.all [.foreign, .finish], "$0"),
    (.all [.group 1 (.all [.noneOf "aeiou", .text "ese"]), .finish], "$1"),
    (.all [.group 1 (.anyOf ["ax", "test"]), .text "is", .finish], "$1es"),
    (.all [.group 1 (.either [.text "alias", .all [.noneOf "aou", .text "us"], .all [.text "t",
      .oneOf "lm", .text "as"], .anyOf ["gas", "ris"]]), .finish], "$1es"),
    (.all [.group 1 (.all [.text "e", .oneOf "mn", .text "u"]), .opt (.text "s"), .finish], "$1s"),
    (.all [.group 1 (.either [.all [.noneOf "l", .text "ias"], .all [.oneOf "aeiou", .text "las"],
      .all [.oneOf "ejzr", .text "as"], .all [.oneOf "iu", .text "am"]]), .finish], "$1"),
    (.all [.group 1 (.anyOf ["alumn", "syllab", "vir", "radi", "nucle", "fung", "cact", "stimul",
      "termin", "bacill", "foc", "uter", "loc", "strat"]), .anyOf ["us", "i"], .finish], "$1i"),
    (.all [.group 1 (.anyOf ["alumn", "alg", "vertebr"]), .anyOf ["a", "ae"], .finish], "$1ae"),
    (.all [.group 1 (.anyOf ["seraph", "cherub"]), .opt (.text "im"), .finish], "$1im"),
    (.all [.group 1 (.anyOf ["her", "at", "gr"]), .text "o", .finish], "$1oes"),
    (.all [.group 1 (.anyOf ["agend", "addend", "millenni", "dat", "extrem", "bacteri",
      "desiderat", "strat", "candelabr", "errat", "ov", "symposi", "curricul", "automat",
      "quor"]), .anyOf ["a", "um"], .finish], "$1a"),
    (.all [.group 1 (.anyOf ["apheli", "hyperbat", "periheli", "asyndet", "noumen", "phenomen",
      "criteri", "organ", "prolegomen", "hedr", "automat"]), .anyOf ["a", "on"], .finish], "$1a"),
    (.all [.text "sis", .finish], "ses"),
    (.all [.either [.all [.group 1 (.anyOf ["kni", "wi", "li"]), .text "fe"], .all [.group 2
      (.anyOf ["ar", "l", "ea", "eo", "oa", "hoo"]), .text "f"]], .finish], "$1$2ves"),
    (.all [.group 1 (.either [.noneOf "aeiouy", .text "qu"]), .text "y", .finish], "$1ies"),
    (.all [.group 1 (.all [.noneOf "ch", .oneOf "ieo", .oneOf "ln"]), .text "ey", .finish],
      "$1ies"),
    (.all [.group 1 (.anyOf ["x", "ch", "ss", "sh", "zz"]), .finish], "$1es"),
    (.all [.group 1 (.anyOf ["matr", "cod", "mur", "sil", "vert", "ind", "append"]), .anyOf ["ix",
      "ex"], .finish], "$1ices"),
    (.all [.boundary, .group 1 (.either [.all [.opt (.text "tit"), .text "m"], .text "l"]), .anyOf
      ["ice", "ouse"], .finish], "$1ice"),
    (.all [.group 1 (.text "pe"), .anyOf ["rson", "ople"], .finish], "$1ople"),
    (.all [.group 1 (.text "child"), .opt (.text "ren"), .finish], "$1ren"),
    (.all [.text "eaux", .finish], "$0"),
    (.all [.text "m", .oneOf "ae", .text "n", .finish], "men"),
    (.all [.start, .text "thou", .finish], "you")
  ]

/-- Endings and what makes the singular of them. -/
def singularEndings : List (Pattern × String) :=
  [
    (.all [.text "s", .finish], ""),
    (.all [.group 1 (.text "ss"), .finish], "$1"),
    (.all [.group 1 (.either [.anyOf ["wi", "kni"], .all [.either [.anyOf ["after", "half",
      "high", "low", "mid", "non", "night"], .nonWord, .start], .text "li"]]), .text "ves",
      .finish], "$1fe"),
    (.all [.group 1 (.either [.text "ar", .all [.either [.text "wo", .oneOf "ae"], .text "l"],
      .all [.oneOf "eo", .oneOf "ao"]]), .text "ves", .finish], "$1f"),
    (.all [.text "ies", .finish], "y"),
    (.all [.group 1 (.anyOf ["dg", "ss", "ois", "lk", "ok", "wn", "mb", "th", "ch", "ec", "oal",
      "is", "ck", "ix", "sser", "ts", "wb"]), .text "ies", .finish], "$1ie"),
    (.all [.boundary, .group 1 (.either [.text "l", .all [.opt (.anyOf ["neck", "cross", "hog",
      "aun"]), .text "t"], .anyOf ["coll", "faer", "food", "gen", "goon", "group", "hipp", "junk",
      "vegg"], .all [.opt (.text "pork"), .text "p"], .anyOf ["charl", "calor", "cut"]]), .text
      "ies", .finish], "$1ie"),
    (.all [.boundary, .group 1 (.anyOf ["mon", "smil"]), .text "ies", .finish], "$1ey"),
    (.all [.boundary, .group 1 (.either [.all [.opt (.text "tit"), .text "m"], .text "l"]), .text
      "ice", .finish], "$1ouse"),
    (.all [.group 1 (.anyOf ["seraph", "cherub"]), .text "im", .finish], "$1"),
    (.all [.group 1 (.either [.anyOf ["x", "ch", "ss", "sh", "zz", "tto", "go", "cho", "alias"],
      .all [.noneOf "aou", .text "us"], .all [.text "t", .oneOf "lm", .text "as"], .text "gas",
      .all [.anyOf ["her", "at", "gr"], .text "o"], .all [.oneOf "aeiou", .text "ris"]]), .opt
      (.text "es"), .finish], "$1"),
    (.all [.group 1 (.anyOf ["analy", "diagno", "parenthe", "progno", "synop", "the", "empha",
      "cri", "ne"]), .anyOf ["sis", "ses"], .finish], "$1sis"),
    (.all [.group 1 (.either [.anyOf ["movie", "twelve", "abuse"], .all [.text "e", .oneOf "mn",
      .text "u"]]), .text "s", .finish], "$1"),
    (.all [.group 1 (.text "test"), .anyOf ["is", "es"], .finish], "$1is"),
    (.all [.group 1 (.anyOf ["alumn", "syllab", "vir", "radi", "nucle", "fung", "cact", "stimul",
      "termin", "bacill", "foc", "uter", "loc", "strat"]), .anyOf ["us", "i"], .finish], "$1us"),
    (.all [.group 1 (.anyOf ["agend", "addend", "millenni", "dat", "extrem", "bacteri",
      "desiderat", "strat", "candelabr", "errat", "ov", "symposi", "curricul", "quor"]), .text
      "a", .finish], "$1um"),
    (.all [.group 1 (.anyOf ["apheli", "hyperbat", "periheli", "asyndet", "noumen", "phenomen",
      "criteri", "organ", "prolegomen", "hedr", "automat"]), .text "a", .finish], "$1on"),
    (.all [.group 1 (.anyOf ["alumn", "alg", "vertebr"]), .text "ae", .finish], "$1a"),
    (.all [.group 1 (.anyOf ["cod", "mur", "sil", "vert", "ind"]), .text "ices", .finish], "$1ex"),
    (.all [.group 1 (.anyOf ["matr", "append"]), .text "ices", .finish], "$1ix"),
    (.all [.group 1 (.text "pe"), .group 2 (.anyOf ["rson", "ople"]), .finish], "$1rson"),
    (.all [.group 1 (.text "child"), .text "ren", .finish], "$1"),
    (.all [.group 1 (.text "eau"), .opt (.text "x"), .finish], "$1"),
    (.all [.text "men", .finish], "man")
  ]

end RecordSql.Inflection
