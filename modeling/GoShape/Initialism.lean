/-! ASCII letters, and the initialisms that names write in capitals throughout. -/
namespace GoShape

/-- A small ASCII letter. -/
def isSmall (c : Char) : Bool := 'a' ≤ c && c ≤ 'z'

/-- A capital ASCII letter. -/
def isCapital (c : Char) : Bool := 'A' ≤ c && c ≤ 'Z'

/-- An ASCII letter or digit. -/
def isAlphanumeric (c : Char) : Bool := isSmall c || isCapital c || ('0' ≤ c && c ≤ '9')

/-- The capital of a small ASCII letter; every other character is its own capital. -/
def capital (c : Char) : Char := if isSmall c then Char.ofNat (c.toNat - 32) else c

/-- The known initialisms. -/
def initialisms : List String :=
  ["API", "ASCII", "CPU", "CSS", "DNS", "EOF", "GUID", "HTML", "HTTP", "HTTPS", "ID", "IP", "JSON",
   "LHS", "QPS", "RAM", "RHS", "RPC", "SLA", "SMTP", "SSH", "TCP", "TLS", "TTL", "UDP", "UI",
   "UID", "UUID", "URI", "URL", "UTF8", "VM", "XML", "XSRF", "XSS"]

/-- A word that is an initialism in some mixture of small letters and capitals. -/
def isInitialism (word : List Char) : Bool := initialisms.contains (String.ofList (word.map capital))

theorem capital_of_not_small {c : Char} (h : isSmall c = false) : capital c = c := by
  simp [capital, h]

example : isInitialism "utf8".toList = true ∧ isInitialism "Ids".toList = false := by decide

end GoShape
