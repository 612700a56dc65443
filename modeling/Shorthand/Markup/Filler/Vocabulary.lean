/-!
# Vocabularies of the filler text

A vocabulary has the words that a text begins with, in order, and the words that the
sentences are drawn from.
-/

namespace Shorthand.Markup

/-- The words of a language. -/
structure Vocabulary where
  opening : List String
  words : List String

namespace Vocabulary

/-- Latin words. -/
def latin : Vocabulary where
  opening :=
    ["lorem", "ipsum", "dolor", "sit", "amet", "consectetur", "adipisicing", "elit"]
  words :=
    ["exercitationem", "perferendis", "perspiciatis", "laborum", "eveniet", "sunt", "iure",
      "nam", "nobis", "eum", "cum", "officiis", "excepturi", "odio", "consectetur", "quasi",
      "aut", "quisquam", "vel", "eligendi", "itaque", "non", "odit", "tempore", "quaerat",
      "dignissimos", "facilis", "neque", "nihil", "expedita", "vitae", "vero", "ipsum", "nisi",
      "animi", "cumque", "pariatur", "velit", "modi", "natus", "iusto", "eaque", "sequi", "illo",
      "sed", "ex", "et", "voluptatibus", "tempora", "veritatis", "ratione", "assumenda",
      "incidunt", "nostrum", "placeat", "aliquid", "fuga", "provident", "praesentium", "rem",
      "necessitatibus", "suscipit", "adipisci", "quidem", "possimus", "voluptas", "debitis",
      "sint", "accusantium", "unde", "sapiente", "voluptate", "qui", "aspernatur", "laudantium",
      "soluta", "amet", "quo", "aliquam", "saepe", "culpa", "libero", "ipsa", "dicta",
      "reiciendis", "nesciunt", "doloribus", "autem", "impedit", "minima", "maiores",
      "repudiandae", "ipsam", "obcaecati", "ullam", "enim", "totam", "delectus", "ducimus",
      "quis", "voluptates", "dolores", "molestiae", "harum", "dolorem", "quia", "voluptatem",
      "molestias", "magni", "distinctio", "omnis", "illum", "dolorum", "voluptatum", "ea",
      "quas", "quam", "corporis", "quae", "blanditiis", "atque", "deserunt", "laboriosam",
      "earum", "consequuntur", "hic", "cupiditate", "quibusdam", "accusamus", "ut", "rerum",
      "error", "minus", "eius", "ab", "ad", "nemo", "fugit", "officia", "at", "in", "id", "quos",
      "reprehenderit", "numquam", "iste", "fugiat", "sit", "inventore", "beatae", "repellendus",
      "magnam", "recusandae", "quod", "explicabo", "doloremque", "aperiam", "consequatur",
      "asperiores", "commodi", "optio", "dolor", "labore", "temporibus", "repellat", "veniam",
      "architecto", "est", "esse", "mollitia", "nulla", "a", "similique", "eos", "alias",
      "dolore", "tenetur", "deleniti", "porro", "facere", "maxime", "corrupti"]

/-- Russian words. -/
def russian : Vocabulary where
  opening :=
    ["далеко-далеко", "за", "словесными", "горами", "в стране", "гласных", "и", "согласных",
      "живут", "рыбные", "тексты"]
  words :=
    ["вдали", "от", "всех", "они", "буквенных", "домах", "на", "берегу", "семантика", "большого",
      "языкового", "океана", "маленький", "ручеек", "даль", "журчит", "по", "всей",
      "обеспечивает", "ее", "всеми", "необходимыми", "правилами", "эта", "парадигматическая",
      "страна", "которой", "жаренные", "предложения", "залетают", "прямо", "рот", "даже",
      "всемогущая", "пунктуация", "не", "имеет", "власти", "над", "рыбными", "текстами",
      "ведущими", "безорфографичный", "образ", "жизни", "однажды", "одна", "маленькая",
      "строчка", "рыбного", "текста", "имени", "lorem", "ipsum", "решила", "выйти", "большой",
      "мир", "грамматики", "великий", "оксмокс", "предупреждал", "о", "злых", "запятых", "диких",
      "знаках", "вопроса", "коварных", "точках", "с", "запятой", "но", "текст", "дал", "сбить",
      "себя", "толку", "он", "собрал", "семь", "своих", "заглавных", "букв", "подпоясал",
      "инициал", "за", "пояс", "пустился", "дорогу", "взобравшись", "первую", "вершину",
      "курсивных", "гор", "бросил", "последний", "взгляд", "назад", "силуэт", "своего",
      "родного", "города"]

/-- Spanish words. -/
def spanish : Vocabulary where
  opening :=
    ["mujer", "uno", "dolor", "más", "de", "poder", "mismo", "si"]
  words :=
    ["ejercicio", "preferencia", "perspicacia", "laboral", "paño", "suntuoso", "molde",
      "namibia", "planeador", "mirar", "demás", "oficinista", "excepción", "odio",
      "consecuencia", "casi", "auto", "chicharra", "velo", "elixir", "ataque", "no", "odio",
      "temporal", "cuórum", "dignísimo", "facilismo", "letra", "nihilista", "expedición", "alma",
      "alveolar", "aparte", "león", "animal", "como", "paria", "belleza", "modo", "natividad",
      "justo", "ataque", "séquito", "pillo", "sed", "ex", "y", "voluminoso", "temporalidad",
      "verdades", "racional", "asunción", "incidente", "marejada", "placenta", "amanecer",
      "fuga", "previsor", "presentación", "lejos", "necesariamente", "sospechoso", "adiposidad",
      "quindío", "pócima", "voluble", "débito", "sintió", "accesorio", "falda", "sapiencia",
      "volutas", "queso", "permacultura", "laudo", "soluciones", "entero", "pan", "litro",
      "tonelada", "culpa", "libertario", "mosca", "dictado", "reincidente", "nascimiento",
      "dolor", "escolar", "impedimento", "mínima", "mayores", "repugnante", "dulce", "obcecado",
      "montaña", "enigma", "total", "deletéreo", "décima", "cábala", "fotografía"]

/-- The vocabulary for the letters behind the name of a filler; Latin if they are unknown. -/
def ofLanguage (language : String) : Vocabulary :=
  match language with
  | "ru" => russian
  | "sp" => spanish
  | _ => latin

end Vocabulary

end Shorthand.Markup
