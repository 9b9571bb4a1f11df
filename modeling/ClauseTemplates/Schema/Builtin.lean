import ClauseTemplates.Schema.Basic

namespace ClauseTemplates

def monetaryAmount : String := "MonetaryAmount"

def currencyCode : String := "CurrencyCode"

/-- Currencies with a symbol that belongs to no other one. -/
def currencySymbols : List (String × String) :=
  [("USD", "$"), ("EUR", "€"), ("GBP", "£"), ("JPY", "¥"), ("INR", "₹"), ("KRW", "₩"),
   ("NGN", "₦"), ("ILS", "₪"), ("VND", "₫"), ("UAH", "₴"), ("PHP", "₱"), ("TRY", "₺"),
   ("RUB", "₽")]

def plainCurrencies : List String :=
  ["AUD", "BRL", "CAD", "CHF", "CNY", "CZK", "DKK", "HKD", "MXN", "NOK", "NZD", "PLN", "SEK",
   "SGD", "ZAR"]

def currencyCodes : List String := currencySymbols.map (·.1) ++ plainCurrencies

def currencySymbol? (code : String) : Option String := currencySymbols.lookup code

namespace Schema

/-- What every schema declares. -/
def builtin : Schema :=
  ⟨[Declaration.enumeration currencyCode currencyCodes,
    Declaration.concept monetaryAmount
      [Property.plain "doubleValue" "Double", Property.plain "currencyCode" currencyCode]]⟩

/-- The first name that stands a second time. -/
def firstRepeated (seen : List String) : List Declaration → Option String
  | [] => none
  | d :: rest => if seen.contains d.name then some d.name else firstRepeated (d.name :: seen) rest

/-- The built-in declarations with others on top. One of these may take the place of a built-in
declaration, but the name of one declared twice is returned as the error. -/
def ofDeclarations (declarations : List Declaration) : Except String Schema :=
  match firstRepeated [] declarations with
  | some name => .error name
  | none => .ok (declarations.foldl insert builtin)

end Schema

end ClauseTemplates
