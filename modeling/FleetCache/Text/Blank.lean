import FleetCache.Text.Split

set_option autoImplicit false

namespace FleetCache.Text

def isSpace (c : Char) : Bool :=
  let n := c.toNat
  (0x09 ≤ n && n ≤ 0x0D) || n == 0x20 || n == 0x85 || n == 0xA0 || n == 0x1680 ||
    (0x2000 ≤ n && n ≤ 0x200A) || n == 0x2028 || n == 0x2029 || n == 0x202F || n == 0x205F ||
    n == 0x3000

def isBlank (c : Char) : Bool :=
  isSpace c || (0x1C ≤ c.toNat && c.toNat ≤ 0x1F)

def trimBy (p : Char → Bool) (text : List Char) : List Char :=
  ((text.dropWhile p).reverse.dropWhile p).reverse

def trim (text : List Char) : List Char :=
  trimBy isBlank text

def trimmed (s : String) : String :=
  String.ofList (trim s.toList)

def commaList (s : String) : List String :=
  (((splitAt ',' s.toList).map trim).filter (fun item => !item.isEmpty)).map String.ofList

end FleetCache.Text
