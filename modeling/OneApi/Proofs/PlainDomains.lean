import OneApi.Url.Parser

/-! Plain domains. An address that is read without a table of domains is read as the same address with
any table, so what is shown of it holds for all readers of domains. -/

namespace OneApi.Url

/-- What the first gives, the second gives. -/
def Below {ε α : Type} (x y : Except ε α) : Prop := ∀ a, x = .ok a → y = .ok a

section

variable {ε α β : Type} {x y : Except ε α}

theorem Below.refl (x : Except ε α) : Below x x := fun _ h => h

theorem Below.bind (h : Below x y) (f : α → Except ε β) : Below (x >>= f) (y >>= f) := by
  intro b hb
  cases x with
  | error e => cases hb
  | ok a =>
    rw [h a rfl]
    exact hb

theorem Below.map (h : Below x y) (f : α → β) : Below (x.map f) (y.map f) := by
  intro b hb
  cases x with
  | error e => cases hb
  | ok a =>
    rw [h a rfl]
    exact hb

end

variable [names : DomainNames]

theorem toAscii_of_ascii {domain : List UInt8} {name : List Char}
    (h : DomainNames.ascii.toAscii domain = some name) : names.toAscii domain = some name := by
  unfold DomainNames.ascii at h
  dsimp only at h
  split at h
  · rename_i hplain
    rw [DomainNames.toAscii_of_plain hplain, h]
  · contradiction

theorem below_readDomain (s : List Char) :
    Below (@Host.readDomain .ascii s) (Host.readDomain s) := by
  unfold Host.readDomain
  cases hname : DomainNames.ascii.toAscii (Text.percentDecode s) with
  | none => exact fun h hs => (by cases hs)
  | some name =>
    rw [toAscii_of_ascii hname]
    exact .refl _

theorem below_read (s : List Char) : Below (@Host.read .ascii s) (Host.read s) := by
  unfold Host.read
  split
  · exact .refl _
  · exact below_readDomain _

theorem below_readAuthority (k : Kind) (s after : List Char) :
    Below (@readAuthority .ascii k s after) (readAuthority k s after) := by
  unfold readAuthority
  dsimp only
  -- the names differ only where the host of a web address is read
  split
  · exact .refl _
  · split
    · split
      · exact .refl _
      · split
        · exact (below_read _).bind _
        · exact .refl _
    · split
      · exact (below_read _).bind _
      · exact .refl _

theorem below_readWithAuthority (scheme s : List Char) :
    Below (@readWithAuthority .ascii scheme s) (readWithAuthority scheme s) :=
  (below_readAuthority _ _ _).bind _

theorem below_readFile (scheme s : List Char) :
    Below (@readFile .ascii scheme s) (readFile scheme s) := by
  have hhost (t : List Char) : Below (@readFileHost .ascii t) (readFileHost t) := by
    unfold readFileHost
    split
    · exact .refl _
    · exact (below_read t).map _
  exact (hhost _).bind _

theorem below_readForeign (scheme s : List Char) :
    Below (@readForeign .ascii scheme s) (readForeign scheme s) := by
  unfold readForeign
  split
  · exact below_readWithAuthority _ _
  · exact .refl _
  · exact .refl _

/-- An address with a plain domain does not depend on the reader of domains. -/
theorem parse_of_ascii {s : List Char} {u : Url} (h : @parse .ascii s = .ok u) :
    parse s = .ok u := by
  have hbelow : Below (@parse .ascii s) (parse s) := by
    unfold parse
    dsimp only
    split
    · exact .refl _
    · split
      · exact below_readWithAuthority _ _
      · exact below_readFile _ _
      · exact below_readForeign _ _
  exact hbelow u h

end OneApi.Url
