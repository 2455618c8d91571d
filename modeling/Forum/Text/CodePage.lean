import Forum.Text.Utf8
namespace Forum.Text

structure CodePage where
  labels : List String
  -- The characters of the bytes from 0x80 on; a replacement character where there is none.
  upper : String
deriving DecidableEq, Repr

namespace CodePage

def controls : String := .ofList ((List.range 32).map fun i => .ofNat (0x80 + i))

def dosCyrillic : CodePage where
  labels := ["866", "cp866", "csibm866", "ibm866"]
  upper :=
    "АБВГДЕЖЗИЙКЛМНОПРСТУФХЦЧШЩЪЫЬЭЮЯ" ++
    "абвгдежзийклмноп░▒▓│┤╡╢╖╕╣║╗╝╜╛┐" ++
    "└┴┬├─┼╞╟╚╔╩╦╠═╬╧╨╤╥╙╘╒╓╫╪┘┌█▄▌▐▀" ++
    "рстуфхцчшщъыьэюяЁёЄєЇїЎў°∙·√№¤■\u00a0"

def latin2 : CodePage where
  labels := ["csisolatin2", "iso-8859-2", "iso-ir-101", "iso8859-2", "iso88592", "iso_8859-2", "iso_8859-2:1987",
    "l2", "latin2"]
  upper :=
    controls ++
    "\u00a0Ą˘Ł¤ĽŚ§¨ŠŞŤŹ\u00adŽŻ°ą˛ł´ľśˇ¸šşťź˝žż" ++
    "ŔÁÂĂÄĹĆÇČÉĘËĚÍÎĎĐŃŇÓÔŐÖ×ŘŮÚŰÜÝŢß" ++
    "ŕáâăäĺćçčéęëěíîďđńňóôőö÷řůúűüýţ˙"

def latin3 : CodePage where
  labels := ["csisolatin3", "iso-8859-3", "iso-ir-109", "iso8859-3", "iso88593", "iso_8859-3", "iso_8859-3:1988",
    "l3", "latin3"]
  upper :=
    controls ++
    "\u00a0Ħ˘£¤\ufffdĤ§¨İŞĞĴ\u00ad\ufffdŻ°ħ²³´µĥ·¸ışğĵ½\ufffdż" ++
    "ÀÁÂ\ufffdÄĊĈÇÈÉÊËÌÍÎÏ\ufffdÑÒÓÔĠÖ×ĜÙÚÛÜŬŜß" ++
    "àáâ\ufffdäċĉçèéêëìíîï\ufffdñòóôġö÷ĝùúûüŭŝ˙"

def latin4 : CodePage where
  labels := ["csisolatin4", "iso-8859-4", "iso-ir-110", "iso8859-4", "iso88594", "iso_8859-4", "iso_8859-4:1988",
    "l4", "latin4"]
  upper :=
    controls ++
    "\u00a0ĄĸŖ¤ĨĻ§¨ŠĒĢŦ\u00adŽ¯°ą˛ŗ´ĩļˇ¸šēģŧŊžŋ" ++
    "ĀÁÂÃÄÅÆĮČÉĘËĖÍÎĪĐŅŌĶÔÕÖ×ØŲÚÛÜŨŪß" ++
    "āáâãäåæįčéęëėíîīđņōķôõö÷øųúûüũū˙"

def isoCyrillic : CodePage where
  labels := ["csisolatincyrillic", "cyrillic", "iso-8859-5", "iso-ir-144", "iso8859-5", "iso88595", "iso_8859-5",
    "iso_8859-5:1988"]
  upper :=
    controls ++
    "\u00a0ЁЂЃЄЅІЇЈЉЊЋЌ\u00adЎЏАБВГДЕЖЗИЙКЛМНОП" ++
    "РСТУФХЦЧШЩЪЫЬЭЮЯабвгдежзийклмноп" ++
    "рстуфхцчшщъыьэюя№ёђѓєѕіїјљњћќ§ўџ"

def isoArabic : CodePage where
  labels := ["arabic", "asmo-708", "csiso88596e", "csiso88596i", "csisolatinarabic", "ecma-114", "iso-8859-6",
    "iso-8859-6-e", "iso-8859-6-i", "iso-ir-127", "iso8859-6", "iso88596", "iso_8859-6", "iso_8859-6:1987"]
  upper :=
    controls ++
    "\u00a0\ufffd\ufffd\ufffd¤\ufffd\ufffd\ufffd\ufffd\ufffd\ufffd\ufffd\u060c\u00ad\ufffd\ufffd" ++
    "\ufffd\ufffd\ufffd\ufffd\ufffd\ufffd\ufffd\ufffd\ufffd\ufffd\ufffd\u061b\ufffd\ufffd\ufffd\u061f" ++
    "\ufffd\u0621\u0622\u0623\u0624\u0625\u0626\u0627\u0628\u0629\u062a\u062b\u062c\u062d\u062e\u062f" ++
    "\u0630\u0631\u0632\u0633\u0634\u0635\u0636\u0637\u0638\u0639\u063a\ufffd\ufffd\ufffd\ufffd\ufffd" ++
    "\u0640\u0641\u0642\u0643\u0644\u0645\u0646\u0647\u0648\u0649\u064a\u064b\u064c\u064d\u064e\u064f" ++
    "\u0650\u0651\u0652\ufffd\ufffd\ufffd\ufffd\ufffd\ufffd\ufffd\ufffd\ufffd\ufffd\ufffd\ufffd\ufffd"

def isoGreek : CodePage where
  labels := ["csisolatingreek", "ecma-118", "elot_928", "greek", "greek8", "iso-8859-7", "iso-ir-126", "iso8859-7",
    "iso88597", "iso_8859-7", "iso_8859-7:1987", "sun_eu_greek"]
  upper :=
    controls ++
    "\u00a0‘’£€₯¦§¨©ͺ«¬\u00ad\ufffd―°±²³΄΅Ά·ΈΉΊ»Ό½ΎΏ" ++
    "ΐΑΒΓΔΕΖΗΘΙΚΛΜΝΞΟΠΡ\ufffdΣΤΥΦΧΨΩΪΫάέήί" ++
    "ΰαβγδεζηθικλμνξοπρςστυφχψωϊϋόύώ\ufffd"

def isoHebrew : CodePage where
  labels := ["csiso88598e", "csiso88598i", "csisolatinhebrew", "hebrew", "iso-8859-8", "iso-8859-8-e", "iso-8859-8-i",
    "iso-ir-138", "iso8859-8", "iso88598", "iso_8859-8", "iso_8859-8:1988", "logical", "visual"]
  upper :=
    controls ++
    "\u00a0\ufffd¢£¤¥¦§¨©×«¬\u00ad®¯°±²³´µ¶·¸¹÷»¼½¾\ufffd" ++
    "\ufffd\ufffd\ufffd\ufffd\ufffd\ufffd\ufffd\ufffd\ufffd\ufffd\ufffd\ufffd\ufffd\ufffd\ufffd\ufffd" ++
    "\ufffd\ufffd\ufffd\ufffd\ufffd\ufffd\ufffd\ufffd\ufffd\ufffd\ufffd\ufffd\ufffd\ufffd\ufffd‗" ++
    "\u05d0\u05d1\u05d2\u05d3\u05d4\u05d5\u05d6\u05d7\u05d8\u05d9\u05da\u05db\u05dc\u05dd\u05de\u05df" ++
    "\u05e0\u05e1\u05e2\u05e3\u05e4\u05e5\u05e6\u05e7\u05e8\u05e9\u05ea\ufffd\ufffd\u200e\u200f\ufffd"

def latin6 : CodePage where
  labels := ["csisolatin6", "iso-8859-10", "iso-ir-157", "iso8859-10", "iso885910", "l6", "latin6"]
  upper :=
    controls ++
    "\u00a0ĄĒĢĪĨĶ§ĻĐŠŦŽ\u00adŪŊ°ąēģīĩķ·ļđšŧž―ūŋ" ++
    "ĀÁÂÃÄÅÆĮČÉĘËĖÍÎÏÐŅŌÓÔÕÖŨØŲÚÛÜÝÞß" ++
    "āáâãäåæįčéęëėíîïðņōóôõöũøųúûüýþĸ"

def latin7 : CodePage where
  labels := ["iso-8859-13", "iso8859-13", "iso885913"]
  upper :=
    controls ++
    "\u00a0”¢£¤„¦§Ø©Ŗ«¬\u00ad®Æ°±²³“µ¶·ø¹ŗ»¼½¾æ" ++
    "ĄĮĀĆÄÅĘĒČÉŹĖĢĶĪĻŠŃŅÓŌÕÖ×ŲŁŚŪÜŻŽß" ++
    "ąįāćäåęēčéźėģķīļšńņóōõö÷ųłśūüżž’"

def latin8 : CodePage where
  labels := ["iso-8859-14", "iso8859-14", "iso885914"]
  upper :=
    controls ++
    "\u00a0Ḃḃ£ĊċḊ§Ẁ©ẂḋỲ\u00ad®ŸḞḟĠġṀṁ¶ṖẁṗẃṠỳẄẅṡ" ++
    "ÀÁÂÃÄÅÆÇÈÉÊËÌÍÎÏŴÑÒÓÔÕÖṪØÙÚÛÜÝŶß" ++
    "àáâãäåæçèéêëìíîïŵñòóôõöṫøùúûüýŷÿ"

def latin9 : CodePage where
  labels := ["csisolatin9", "iso-8859-15", "iso8859-15", "iso885915", "iso_8859-15", "l9"]
  upper :=
    controls ++
    "\u00a0¡¢£€¥Š§š©ª«¬\u00ad®¯°±²³Žµ¶·ž¹º»ŒœŸ¿" ++
    "ÀÁÂÃÄÅÆÇÈÉÊËÌÍÎÏÐÑÒÓÔÕÖ×ØÙÚÛÜÝÞß" ++
    "àáâãäåæçèéêëìíîïðñòóôõö÷øùúûüýþÿ"

def latin10 : CodePage where
  labels := ["iso-8859-16"]
  upper :=
    controls ++
    "\u00a0ĄąŁ€„Š§š©Ș«Ź\u00adźŻ°±ČłŽ”¶·žčș»ŒœŸż" ++
    "ÀÁÂĂÄĆÆÇÈÉÊËÌÍÎÏĐŃÒÓÔŐÖŚŰÙÚÛÜĘȚß" ++
    "àáâăäćæçèéêëìíîïđńòóôőöśűùúûüęțÿ"

def koi8Russian : CodePage where
  labels := ["cskoi8r", "koi", "koi8", "koi8-r", "koi8_r"]
  upper :=
    "─│┌┐└┘├┤┬┴┼▀▄█▌▐░▒▓⌠■∙√≈≤≥\u00a0⌡°²·÷" ++
    "═║╒ё╓╔╕╖╗╘╙╚╛╜╝╞╟╠╡Ё╢╣╤╥╦╧╨╩╪╫╬©" ++
    "юабцдефгхийклмнопярстужвьызшэщчъ" ++
    "ЮАБЦДЕФГХИЙКЛМНОПЯРСТУЖВЬЫЗШЭЩЧЪ"

def koi8Ukrainian : CodePage where
  labels := ["koi8-ru", "koi8-u"]
  upper :=
    "─│┌┐└┘├┤┬┴┼▀▄█▌▐░▒▓⌠■∙√≈≤≥\u00a0⌡°²·÷" ++
    "═║╒ёє╔ії╗╘╙╚╛ґў╞╟╠╡ЁЄ╣ІЇ╦╧╨╩╪ҐЎ©" ++
    "юабцдефгхийклмнопярстужвьызшэщчъ" ++
    "ЮАБЦДЕФГХИЙКЛМНОПЯРСТУЖВЬЫЗШЭЩЧЪ"

def macRoman : CodePage where
  labels := ["csmacintosh", "mac", "macintosh", "x-mac-roman"]
  upper :=
    "ÄÅÇÉÑÖÜáàâäãåçéèêëíìîïñóòôöõúùûü" ++
    "†°¢£§•¶ß®©™´¨≠ÆØ∞±≤≥¥µ∂∑∏π∫ªºΩæø" ++
    "¿¡¬√ƒ≈∆«»…\u00a0ÀÃÕŒœ–—“”‘’÷◊ÿŸ⁄€‹›ﬁﬂ" ++
    "‡·‚„‰ÂÊÁËÈÍÎÏÌÓÔ\uf8ffÒÚÛÙıˆ˜¯˘˙˚¸˝˛ˇ"

def macCyrillic : CodePage where
  labels := ["x-mac-cyrillic", "x-mac-ukrainian"]
  upper :=
    "АБВГДЕЖЗИЙКЛМНОПРСТУФХЦЧШЩЪЫЬЭЮЯ" ++
    "†°Ґ£§•¶І®©™Ђђ≠Ѓѓ∞±≤≥іµґЈЄєЇїЉљЊњ" ++
    "јЅ¬√ƒ≈∆«»…\u00a0ЋћЌќѕ–—“”‘’÷„ЎўЏџ№Ёёя" ++
    "абвгдежзийклмнопрстуфхцчшщъыьэю€"

def windowsThai : CodePage where
  labels := ["dos-874", "iso-8859-11", "iso8859-11", "iso885911", "tis-620", "windows-874"]
  upper :=
    "€\u0081\u0082\u0083\u0084…\u0086\u0087\u0088\u0089\u008a\u008b\u008c\u008d\u008e\u008f" ++
    "\u0090‘’“”•–—\u0098\u0099\u009a\u009b\u009c\u009d\u009e\u009f" ++
    "\u00a0กขฃคฅฆงจฉชซฌญฎฏฐฑฒณดตถทธนบปผฝพฟ" ++
    "ภมยรฤลฦวศษสหฬอฮฯะ\u0e31าำ\u0e34\u0e35\u0e36\u0e37\u0e38\u0e39\u0e3a\ufffd\ufffd\ufffd\ufffd฿" ++
    "เแโใไๅๆ\u0e47\u0e48\u0e49\u0e4a\u0e4b\u0e4c\u0e4d\u0e4e๏๐๑๒๓๔๕๖๗๘๙๚๛\ufffd\ufffd\ufffd\ufffd"

def windowsCentral : CodePage where
  labels := ["cp1250", "windows-1250", "x-cp1250"]
  upper :=
    "€\u0081‚\u0083„…†‡\u0088‰Š‹ŚŤŽŹ\u0090‘’“”•–—\u0098™š›śťžź" ++
    "\u00a0ˇ˘Ł¤Ą¦§¨©Ş«¬\u00ad®Ż°±˛ł´µ¶·¸ąş»Ľ˝ľż" ++
    "ŔÁÂĂÄĹĆÇČÉĘËĚÍÎĎĐŃŇÓÔŐÖ×ŘŮÚŰÜÝŢß" ++
    "ŕáâăäĺćçčéęëěíîďđńňóôőö÷řůúűüýţ˙"

def windowsCyrillic : CodePage where
  labels := ["cp1251", "windows-1251", "x-cp1251"]
  upper :=
    "ЂЃ‚ѓ„…†‡€‰Љ‹ЊЌЋЏђ‘’“”•–—\u0098™љ›њќћџ" ++
    "\u00a0ЎўЈ¤Ґ¦§Ё©Є«¬\u00ad®Ї°±Ііґµ¶·ё№є»јЅѕї" ++
    "АБВГДЕЖЗИЙКЛМНОПРСТУФХЦЧШЩЪЫЬЭЮЯ" ++
    "абвгдежзийклмнопрстуфхцчшщъыьэюя"

def windowsWestern : CodePage where
  labels := ["ansi_x3.4-1968", "ascii", "cp1252", "cp819", "csisolatin1", "ibm819", "iso-8859-1", "iso-ir-100",
    "iso8859-1", "iso88591", "iso_8859-1", "iso_8859-1:1987", "l1", "latin1", "us-ascii", "windows-1252", "x-cp1252"]
  upper :=
    "€\u0081‚ƒ„…†‡ˆ‰Š‹Œ\u008dŽ\u008f\u0090‘’“”•–—˜™š›œ\u009džŸ" ++
    "\u00a0¡¢£¤¥¦§¨©ª«¬\u00ad®¯°±²³´µ¶·¸¹º»¼½¾¿" ++
    "ÀÁÂÃÄÅÆÇÈÉÊËÌÍÎÏÐÑÒÓÔÕÖ×ØÙÚÛÜÝÞß" ++
    "àáâãäåæçèéêëìíîïðñòóôõö÷øùúûüýþÿ"

def windowsGreek : CodePage where
  labels := ["cp1253", "windows-1253", "x-cp1253"]
  upper :=
    "€\u0081‚ƒ„…†‡\u0088‰\u008a‹\u008c\u008d\u008e\u008f\u0090‘’“”•–—\u0098™\u009a›\u009c\u009d\u009e\u009f" ++
    "\u00a0΅Ά£¤¥¦§¨©\ufffd«¬\u00ad®―°±²³΄µ¶·ΈΉΊ»Ό½ΎΏ" ++
    "ΐΑΒΓΔΕΖΗΘΙΚΛΜΝΞΟΠΡ\ufffdΣΤΥΦΧΨΩΪΫάέήί" ++
    "ΰαβγδεζηθικλμνξοπρςστυφχψωϊϋόύώ\ufffd"

def windowsTurkish : CodePage where
  labels := ["cp1254", "csisolatin5", "iso-8859-9", "iso-ir-148", "iso8859-9", "iso88599", "iso_8859-9",
    "iso_8859-9:1989", "l5", "latin5", "windows-1254", "x-cp1254"]
  upper :=
    "€\u0081‚ƒ„…†‡ˆ‰Š‹Œ\u008d\u008e\u008f\u0090‘’“”•–—˜™š›œ\u009d\u009eŸ" ++
    "\u00a0¡¢£¤¥¦§¨©ª«¬\u00ad®¯°±²³´µ¶·¸¹º»¼½¾¿" ++
    "ÀÁÂÃÄÅÆÇÈÉÊËÌÍÎÏĞÑÒÓÔÕÖ×ØÙÚÛÜİŞß" ++
    "àáâãäåæçèéêëìíîïğñòóôõö÷øùúûüışÿ"

def windowsHebrew : CodePage where
  labels := ["cp1255", "windows-1255", "x-cp1255"]
  upper :=
    "€\u0081‚ƒ„…†‡ˆ‰\u008a‹\u008c\u008d\u008e\u008f\u0090‘’“”•–—˜™\u009a›\u009c\u009d\u009e\u009f" ++
    "\u00a0¡¢£₪¥¦§¨©×«¬\u00ad®¯°±²³´µ¶·¸¹÷»¼½¾¿" ++
    "\u05b0\u05b1\u05b2\u05b3\u05b4\u05b5\u05b6\u05b7\u05b8\u05b9\u05ba\u05bb\u05bc\u05bd\u05be\u05bf" ++
    "\u05c0\u05c1\u05c2\u05c3\u05f0\u05f1\u05f2\u05f3\u05f4\ufffd\ufffd\ufffd\ufffd\ufffd\ufffd\ufffd" ++
    "\u05d0\u05d1\u05d2\u05d3\u05d4\u05d5\u05d6\u05d7\u05d8\u05d9\u05da\u05db\u05dc\u05dd\u05de\u05df" ++
    "\u05e0\u05e1\u05e2\u05e3\u05e4\u05e5\u05e6\u05e7\u05e8\u05e9\u05ea\ufffd\ufffd\u200e\u200f\ufffd"

def windowsArabic : CodePage where
  labels := ["cp1256", "windows-1256", "x-cp1256"]
  upper :=
    "€\u067e‚ƒ„…†‡ˆ‰\u0679‹Œ\u0686\u0698\u0688\u06af‘’“”•–—\u06a9™\u0691›œ\u200c\u200d\u06ba" ++
    "\u00a0\u060c¢£¤¥¦§¨©\u06be«¬\u00ad®¯°±²³´µ¶·¸¹\u061b»¼½¾\u061f" ++
    "\u06c1\u0621\u0622\u0623\u0624\u0625\u0626\u0627\u0628\u0629\u062a\u062b\u062c\u062d\u062e\u062f" ++
    "\u0630\u0631\u0632\u0633\u0634\u0635\u0636×\u0637\u0638\u0639\u063a\u0640\u0641\u0642\u0643" ++
    "à\u0644â\u0645\u0646\u0647\u0648çèéêë\u0649\u064aîï" ++
    "\u064b\u064c\u064d\u064eô\u064f\u0650÷\u0651ù\u0652ûü\u200e\u200f\u06d2"

def windowsBaltic : CodePage where
  labels := ["cp1257", "windows-1257", "x-cp1257"]
  upper :=
    "€\u0081‚\u0083„…†‡\u0088‰\u008a‹\u008c¨ˇ¸\u0090‘’“”•–—\u0098™\u009a›\u009c¯˛\u009f" ++
    "\u00a0\ufffd¢£¤\ufffd¦§Ø©Ŗ«¬\u00ad®Æ°±²³´µ¶·ø¹ŗ»¼½¾æ" ++
    "ĄĮĀĆÄÅĘĒČÉŹĖĢĶĪĻŠŃŅÓŌÕÖ×ŲŁŚŪÜŻŽß" ++
    "ąįāćäåęēčéźėģķīļšńņóōõö÷ųłśūüżž˙"

def windowsVietnamese : CodePage where
  labels := ["cp1258", "windows-1258", "x-cp1258"]
  upper :=
    "€\u0081‚ƒ„…†‡ˆ‰\u008a‹Œ\u008d\u008e\u008f\u0090‘’“”•–—˜™\u009a›œ\u009d\u009eŸ" ++
    "\u00a0¡¢£¤¥¦§¨©ª«¬\u00ad®¯°±²³´µ¶·¸¹º»¼½¾¿" ++
    "ÀÁÂĂÄÅÆÇÈÉÊË\u0300ÍÎÏĐÑ\u0309ÓÔƠÖ×ØÙÚÛÜƯ\u0303ß" ++
    "àáâăäåæçèéêë\u0301íîïđñ\u0323óôơö÷øùúûüư₫ÿ"

def all : List CodePage := [dosCyrillic, latin2, latin3, latin4, isoCyrillic, isoArabic, isoGreek, isoHebrew,
  latin6, latin7, latin8, latin9, latin10, koi8Russian, koi8Ukrainian, macRoman, macCyrillic, windowsThai,
  windowsCentral, windowsCyrillic, windowsWestern, windowsGreek, windowsTurkish, windowsHebrew, windowsArabic,
  windowsBaltic, windowsVietnamese]

def ofLabel? (label : String) : Option CodePage := all.find? (·.labels.contains label)

def decode (p : CodePage) (bytes : List UInt8) : String :=
  let upper := p.upper.toList.toArray
  .ofList (bytes.map fun b => if b < 0x80 then .ofNat b.toNat else upper.getD (b.toNat - 0x80) Utf8.replacement)

end CodePage
end Forum.Text
