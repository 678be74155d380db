import SphinxBackend.Collections.Splitting
import SphinxBackend.Db.Connection

/-!
# What the connection string tells apart

`get_connection_string` joins five fields with the separators of a URI and escapes nothing. The
string can be split at every colon, an at sign after it, and after that a port between a colon and
a slash; each such split is a configuration with this string. So a configuration is known from its
string exactly if its own split is the only one, which is a condition on its fields
(`ConnectionConfig.Unambiguous`, `determined_iff`).

What is handed over is a pointer to the characters, so the string is read up to its first NUL. Among
the configurations without one this makes no difference (`cString_determined_iff`); with one, none
is known.
-/

namespace Sphinx.Db

open Collections

/-! ## Ports -/

/-- The digits of a port. -/
def portDigits (port : UInt16) : List Char := (toString port.toNat).toList

/-- A port between two texts, with a colon before it and a slash after it. -/
def aroundPort (l : List Char) (port : UInt16) (r : List Char) : List Char :=
  l ++ ':' :: (portDigits port ++ '/' :: r)

/-- A port between a colon and a slash stands somewhere in the text. -/
def HoldsPort (cs : List Char) : Prop := ∃ l port r, cs = aroundPort l port r

theorem not_holdsPort_of_notMem {cs : List Char} (h : ':' ∉ cs) : ¬HoldsPort cs := by
  rintro ⟨l, port, r, rfl⟩
  exact h (List.mem_append_right _ List.mem_cons_self)

theorem notMem_portDigits {c : Char} (hd : c.isDigit = false) (hm : c ≠ '-') (port : UInt16) :
    c ∉ portDigits port := Text.notMem_toString hd hm (port.toNat : Int)

theorem portDigits_injective : Function.Injective portDigits := by
  intro p q h
  have htext : toString (p.toNat : Int) = toString (q.toNat : Int) := String.toList_inj.mp h
  exact UInt16.toNat_inj.mp (Int.natCast_inj.mp (Text.toString_injective htext))

section Splits

variable {l l' r r' x y : List Char} {p q : UInt16}

/-- A colon after the beginning of a port comes after its slash. -/
theorem exists_of_portDigits_append (h : portDigits p ++ '/' :: r = x ++ ':' :: y) :
    ∃ m, x = portDigits p ++ '/' :: m ∧ r = m ++ ':' :: y := by
  have hcolon : ':' ∉ portDigits p ++ ['/'] := by
    rw [List.mem_append, not_or]
    exact ⟨notMem_portDigits (by decide) (by decide) p, by decide⟩
  have hsplit : (portDigits p ++ ['/']) ++ r = x ++ ':' :: y := by
    rw [List.append_assoc]
    exact h
  obtain ⟨m, hx, hr⟩ := exists_append_of_notMem hcolon hsplit
  exact ⟨m, by rw [hx, List.append_assoc]; rfl, hr⟩

/-- The first slash after the beginning of a port ends it. -/
theorem eq_of_portDigits_append (h : portDigits p ++ '/' :: r = portDigits q ++ '/' :: r') :
    q = p ∧ r' = r := by
  have hslash (port : UInt16) : '/' ∉ portDigits port :=
    notMem_portDigits (by decide) (by decide) port
  rcases eq_or_exists_of_notMem (hslash p) h with ⟨hq, hr⟩ | ⟨m, hq, -⟩
  · exact ⟨portDigits_injective hq, hr⟩
  · have hmem : '/' ∈ portDigits q := by
      rw [hq]
      exact List.mem_append_right _ List.mem_cons_self
    exact absurd hmem (hslash q)

/-- There is one split around a port if there is no port on either side. -/
theorem eq_of_port_split (hl : ¬HoldsPort l) (hr : ¬HoldsPort r)
    (h : aroundPort l p r = aroundPort l' q r') : l' = l ∧ q = p ∧ r' = r := by
  rcases eq_or_exists_or_exists h with ⟨hl', hport⟩ | ⟨m, -, hport⟩ | ⟨m, hl', hport⟩
  · exact ⟨hl', eq_of_portDigits_append hport.symm⟩
  · obtain ⟨m', -, hr'⟩ := exists_of_portDigits_append hport
    exact absurd ⟨m', q, r', hr'⟩ hr
  · obtain ⟨m', hm, -⟩ := exists_of_portDigits_append hport
    rw [hm] at hl'
    exact absurd ⟨l', q, m', hl'⟩ hl

end Splits

/-! ## Configurations -/

/-- The characters after the scheme. -/
def ConnectionConfig.afterScheme (c : ConnectionConfig) : List Char :=
  c.user.toList ++ ':' :: (c.password.toList
    ++ '@' :: aroundPort c.host.toList c.port c.dbName.toList)

-- The scheme is a variable here, so that nothing evaluates it.
private theorem toList_uri (scheme : String) (c : ConnectionConfig) :
    (scheme ++ c.user ++ ":" ++ c.password ++ "@" ++ c.host ++ ":" ++ toString c.port.toNat ++ "/"
      ++ c.dbName).toList = scheme.toList ++ c.afterScheme := by
  simp only [String.toList_append, List.append_assoc, ConnectionConfig.afterScheme, aroundPort,
    portDigits]
  rw [show ":".toList = [':'] from rfl, show "@".toList = ['@'] from rfl,
    show "/".toList = ['/'] from rfl]
  simp only [List.singleton_append]

theorem toList_getConnectionString (c : ConnectionConfig) :
    c.getConnectionString.toList = "postgresql://".toList ++ c.afterScheme := toList_uri _ c

theorem getConnectionString_eq_iff {c c' : ConnectionConfig} :
    c'.getConnectionString = c.getConnectionString ↔ c'.afterScheme = c.afterScheme := by
  rw [← String.toList_inj, toList_getConnectionString, toList_getConnectionString]
  exact List.append_right_inj _

attribute [ext] ConnectionConfig

/-- No other configuration has the same string. -/
def ConnectionConfig.Determined (c : ConnectionConfig) : Prop :=
  ∀ c' : ConnectionConfig, c'.getConnectionString = c.getConnectionString → c' = c

/-- No field contains a separator that could end it, or a field before it. -/
structure ConnectionConfig.Unambiguous (c : ConnectionConfig) : Prop where
  user : ':' ∉ c.user.toList
  password_colon : ':' ∉ c.password.toList
  password_at : '@' ∉ c.password.toList
  host_at : '@' ∉ c.host.toList
  host_port : ¬HoldsPort c.host.toList
  dbName_port : ¬HoldsPort c.dbName.toList

private theorem ofList_ne_of_toList {s : String} {l r : List Char} {a : Char}
    (h : s.toList = l ++ a :: r) : String.ofList l ≠ s := by
  rintro rfl
  rw [String.toList_ofList] at h
  exact absurd h (by simp)

private theorem ofList_append_ne {s : String} {r : List Char} {a : Char} :
    String.ofList (s.toList ++ a :: r) ≠ s := by
  intro h
  have hlist := congrArg String.toList h
  rw [String.toList_ofList] at hlist
  exact absurd hlist (by simp)

theorem ConnectionConfig.Determined.eq_of_afterScheme {c : ConnectionConfig} (h : c.Determined)
    (c' : ConnectionConfig) (heq : c'.afterScheme = c.afterScheme) : c' = c :=
  h c' (getConnectionString_eq_iff.mpr heq)

/-- Each separator that stands where it should not is the place of another split. -/
theorem ConnectionConfig.Determined.unambiguous {c : ConnectionConfig} (h : c.Determined) :
    c.Unambiguous where
  user hmem := by
    obtain ⟨l, r, hs⟩ := List.append_of_mem hmem
    have heq := h.eq_of_afterScheme { c with
      user := String.ofList l, password := String.ofList (r ++ ':' :: c.password.toList) } (by
        simp [afterScheme, hs])
    exact ofList_ne_of_toList hs (congrArg (·.user) heq)
  password_colon hmem := by
    obtain ⟨l, r, hs⟩ := List.append_of_mem hmem
    have heq := h.eq_of_afterScheme { c with
      user := String.ofList (c.user.toList ++ ':' :: l), password := String.ofList r } (by
        simp [afterScheme, hs])
    exact ofList_append_ne (congrArg (·.user) heq)
  password_at hmem := by
    obtain ⟨l, r, hs⟩ := List.append_of_mem hmem
    have heq := h.eq_of_afterScheme { c with
      password := String.ofList l, host := String.ofList (r ++ '@' :: c.host.toList) } (by
        simp [afterScheme, aroundPort, hs])
    exact ofList_ne_of_toList hs (congrArg (·.password) heq)
  host_at hmem := by
    obtain ⟨l, r, hs⟩ := List.append_of_mem hmem
    have heq := h.eq_of_afterScheme { c with
      password := String.ofList (c.password.toList ++ '@' :: l), host := String.ofList r } (by
        simp [afterScheme, aroundPort, hs])
    exact ofList_append_ne (congrArg (·.password) heq)
  host_port hmem := by
    obtain ⟨l, q, r, hs⟩ := hmem
    have heq := h.eq_of_afterScheme { c with
      host := String.ofList l, port := q,
      dbName := String.ofList (aroundPort r c.port c.dbName.toList) } (by
        simp [afterScheme, aroundPort, hs])
    exact ofList_ne_of_toList hs (congrArg (·.host) heq)
  dbName_port hmem := by
    obtain ⟨l, q, r, hs⟩ := hmem
    have heq := h.eq_of_afterScheme { c with
      host := String.ofList (aroundPort c.host.toList c.port l), port := q,
      dbName := String.ofList r } (by
        simp [afterScheme, aroundPort, hs])
    exact ofList_append_ne (congrArg (·.host) heq)

/-- After the account there is no second at sign with a port after it. -/
theorem ConnectionConfig.Unambiguous.server_ne {c : ConnectionConfig} (h : c.Unambiguous)
    {x y r : List Char} {q : UInt16} :
    aroundPort c.host.toList c.port c.dbName.toList ≠ x ++ '@' :: aroundPort y q r := by
  intro heq
  have hat : '@' ∉ c.host.toList ++ ':' :: (portDigits c.port ++ ['/']) := by
    simp only [List.mem_append, List.mem_cons, not_or]
    exact ⟨h.host_at, by decide, notMem_portDigits (by decide) (by decide) c.port, by decide,
      List.not_mem_nil⟩
  have hsplit : (c.host.toList ++ ':' :: (portDigits c.port ++ ['/'])) ++ c.dbName.toList
      = x ++ '@' :: aroundPort y q r := by
    rw [← heq, aroundPort]
    simp
  obtain ⟨m, -, hdb⟩ := exists_append_of_notMem hat hsplit
  refine h.dbName_port ⟨m ++ '@' :: y, q, r, ?_⟩
  rw [hdb, aroundPort, aroundPort, List.append_assoc, List.cons_append]

/-- The fields are found one after the other, from the left. -/
theorem ConnectionConfig.Unambiguous.determined {c : ConnectionConfig} (h : c.Unambiguous) :
    c.Determined := by
  intro c' heq
  rw [getConnectionString_eq_iff] at heq
  rcases eq_or_exists_of_notMem h.user heq.symm with ⟨huser, hrest⟩ | ⟨m, -, hrest⟩
  · rcases eq_or_exists_of_notMem h.password_at hrest.symm with ⟨hpassword, hrest⟩ | ⟨m, -, hrest⟩
    · obtain ⟨hhost, hport, hdb⟩ := eq_of_port_split h.host_port h.dbName_port hrest.symm
      rw [String.toList_inj] at huser hpassword hhost hdb
      exact ConnectionConfig.ext hhost hport huser hpassword hdb
    · exact absurd hrest h.server_ne
  · -- the other user would reach beyond the at sign
    have hcolon : ':' ∉ c.password.toList ++ ['@'] := by
      rw [List.mem_append, not_or]
      exact ⟨h.password_colon, by decide⟩
    have hsplit : (c.password.toList ++ ['@']) ++ aroundPort c.host.toList c.port c.dbName.toList
        = m ++ ':' :: (c'.password.toList
          ++ '@' :: aroundPort c'.host.toList c'.port c'.dbName.toList) := by
      rw [List.append_assoc]
      exact hrest
    obtain ⟨m', -, hserver⟩ := exists_append_of_notMem hcolon hsplit
    exact absurd (hserver.trans (List.append_assoc m' (':' :: c'.password.toList) _).symm)
      h.server_ne

/-- **A configuration is known from its string exactly if its fields are unambiguous.** -/
theorem determined_iff (c : ConnectionConfig) : c.Determined ↔ c.Unambiguous :=
  ⟨fun h ↦ h.unambiguous, fun h ↦ h.determined⟩

/-- The string has no NUL, so that all of it is seen. -/
def ConnectionConfig.NulFree (c : ConnectionConfig) : Prop :=
  '\x00' ∉ c.getConnectionString.toList

/-- Among the configurations without a NUL, one is known from the C string exactly if its fields are
unambiguous. -/
theorem cString_determined_iff {c : ConnectionConfig} (hc : c.NulFree) :
    (∀ c' : ConnectionConfig, c'.NulFree →
      Text.cString c'.getConnectionString = Text.cString c.getConnectionString → c' = c) ↔
      c.Unambiguous := by
  rw [← determined_iff, Text.cString_eq_self_iff.mpr hc]
  constructor
  · intro h c' heq
    have hc' : c'.NulFree := by rwa [ConnectionConfig.NulFree, heq]
    exact h c' hc' ((Text.cString_eq_self_iff.mpr hc').trans heq)
  · intro h c' hc' heq
    rw [Text.cString_eq_self_iff.mpr hc'] at heq
    exact h c' heq

/-- With a NUL at the end it is another configuration with the same C string. -/
theorem exists_ne_cString_eq (c : ConnectionConfig) : ∃ c' : ConnectionConfig, c' ≠ c ∧
    Text.cString c'.getConnectionString = Text.cString c.getConnectionString := by
  have hstring : ({ c with dbName := c.dbName ++ "\x00" } : ConnectionConfig).getConnectionString
      = c.getConnectionString ++ "\x00" := by
    rw [← String.toList_inj, String.toList_append, toList_getConnectionString,
      toList_getConnectionString, List.append_assoc]
    refine congrArg _ ?_
    simp only [ConnectionConfig.afterScheme, aroundPort, String.toList_append, List.append_assoc,
      List.cons_append]
  refine ⟨_, fun h ↦ ?_, (congrArg Text.cString hstring).trans (Text.cString_append_nul _)⟩
  have hlength := congrArg (fun c : ConnectionConfig ↦ c.dbName.length) h
  simp only [String.length_append] at hlength
  exact absurd hlength (by simp)

/-- Texts without separators are unambiguous. -/
theorem ConnectionConfig.unambiguous_of_notMem {c : ConnectionConfig}
    (hcolon : ∀ s ∈ [c.user, c.password, c.host, c.dbName], ':' ∉ s.toList)
    (hat : ∀ s ∈ [c.password, c.host], '@' ∉ s.toList) : c.Unambiguous := by
  simp only [List.forall_mem_cons] at hcolon hat
  obtain ⟨huser, hpassword, hhost, hdb, -⟩ := hcolon
  exact ⟨huser, hpassword, hat.1, hat.2.1, not_holdsPort_of_notMem hhost,
    not_holdsPort_of_notMem hdb⟩

example : ConnectionConfig.Unambiguous
    ⟨"localhost", 5432, "sphinx", "sphinx.123", "sphinx_backend"⟩ :=
  ConnectionConfig.unambiguous_of_notMem (by decide) (by decide)

end Sphinx.Db
