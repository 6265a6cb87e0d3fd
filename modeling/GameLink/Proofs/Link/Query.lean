import GameLink.Link.Url
import GameLink.Proofs.Text.Decimal
import GameLink.Proofs.Text.Percent
import Mathlib.Data.Bool.AllAny

/-! # What an address says

An address is taken apart as a server does it: at its question mark, the query at
ampersands, and each parameter at its equals sign. A value that is escaped holds
none of these marks, so there are always the same three parameters, and language
and token are read back from theirs (`address_told`).
-/
namespace GameLink.Percent

/-- Letters and digits of ASCII, and four marks. -/
def Unreserved (c : Char) : Prop := c.isAlphanum = true ∨ c ∈ ['-', '.', '_', '~']

instance (c : Char) : Decidable (Unreserved c) := inferInstanceAs (Decidable (_ ∨ _))

def UpperHex (c : Char) : Prop := c ∈ "0123456789ABCDEF".toList

instance (c : Char) : Decidable (UpperHex c) := inferInstanceAs (Decidable (_ ∈ _))

/-- Unreserved characters and escapes, and `marks` wherever they may stand. -/
inductive Spelled (marks : List Char) : List Char → Prop
  | nil : Spelled marks []
  | unreserved {c : Char} {rest : List Char} (hc : Unreserved c) (h : Spelled marks rest) :
      Spelled marks (c :: rest)
  | escape {high low : Char} {rest : List Char} (hhigh : UpperHex high) (hlow : UpperHex low)
      (h : Spelled marks rest) : Spelled marks ('%' :: high :: low :: rest)
  | mark {c : Char} {rest : List Char} (hc : c ∈ marks) (h : Spelled marks rest) :
      Spelled marks (c :: rest)

section
variable {marks cs ds : List Char}

theorem Spelled.append (h : Spelled marks cs) (h' : Spelled marks ds) :
    Spelled marks (cs ++ ds) := by
  induction h with
  | nil => exact h'
  | unreserved hc _ ih => exact .unreserved hc ih
  | escape hhigh hlow _ ih => exact .escape hhigh hlow ih
  | mark hc _ ih => exact .mark hc ih

theorem spelled_of_unreserved (h : ∀ c ∈ cs, Unreserved c) : Spelled marks cs := by
  induction cs with
  | nil => exact .nil
  | cons c cs ih =>
    exact .unreserved (h c List.mem_cons_self) (ih fun c hc => h c (List.mem_cons_of_mem _ hc))

theorem UpperHex.unreserved {c : Char} (h : UpperHex c) : Unreserved c := by
  have all : ∀ c ∈ "0123456789ABCDEF".toList, Unreserved c := List.all_iff_forall_prop.mp (by decide)
  exact all c h

/-- Whatever else stands there is one of the marks. -/
theorem Spelled.mem (h : Spelled marks cs) {c : Char} (hc : c ∈ cs) :
    Unreserved c ∨ c = '%' ∨ c ∈ marks := by
  induction h with
  | nil => cases hc
  | unreserved hc' _ ih =>
    rcases List.mem_cons.mp hc with rfl | hc
    · exact .inl hc'
    · exact ih hc
  | escape hhigh hlow _ ih =>
    simp only [List.mem_cons] at hc
    rcases hc with rfl | rfl | rfl | hc
    · exact .inr (.inl rfl)
    · exact .inl hhigh.unreserved
    · exact .inl hlow.unreserved
    · exact ih hc
  | mark hc' _ ih =>
    rcases List.mem_cons.mp hc with rfl | hc
    · exact .inr (.inr hc')
    · exact ih hc

theorem unreserved_of_isUnreserved {b : UInt8} (h : isUnreserved b = true) :
    Unreserved (Char.ofNat b.toNat) := by
  have all : ∀ n < 256, isUnreserved (UInt8.ofNat n) = true → Unreserved (Char.ofNat n) := by
    decide +kernel
  exact all b.toNat b.toNat_lt (by rwa [UInt8.ofNat_toNat])

theorem upperHex_hexDigit : ∀ n < 16, UpperHex (hexDigit n) := by decide

theorem spelled_encode (marks : List Char) (bytes : Bytes) : Spelled marks (encode bytes) := by
  induction bytes with
  | nil => exact .nil
  | cons b bytes ih =>
    have hcons : encode (b :: bytes) = encodeByte b ++ encode bytes := List.flatMap_cons
    rw [hcons, encodeByte]
    split
    · rename_i hb
      exact .unreserved (unreserved_of_isUnreserved hb) ih
    · have hlt := b.toNat_lt
      exact .escape (upperHex_hexDigit _ (by omega)) (upperHex_hexDigit _ (by omega)) ih

end

/-- An escaped text holds no character that separates. -/
theorem not_mem_encodeText {c : Char} (hc : ¬ Unreserved c) (hpercent : c ≠ '%') (s : String) :
    c ∉ (encodeText s).toList := by
  rw [encodeText, String.toList_ofList]
  intro hmem
  rcases (spelled_encode [] (Bytes.ofText s)).mem hmem with h | h | h
  · exact hc h
  · exact hpercent h
  · cases h

theorem decode?_encodeText (s : String) :
    decode? (encodeText s).toList = some (Bytes.ofText s) := by
  rw [encodeText, String.toList_ofList, decode?_encode]

end GameLink.Percent

namespace GameLink.Link
open Percent

/-- Nothing in a host ends it. -/
def Bare (host : String) : Prop := ∀ c ∈ host.toList, c ≠ '/' ∧ c ≠ '?' ∧ c ≠ '#'

/-- The parameters of a query, each split at its equals signs. -/
def parameters (query : List Char) : List (List (List Char)) :=
  (query.splitOn '&').map (List.splitOn '=')

/-- What a query says, taken apart. -/
structure Tells (query : List Char) (lang token : String) (online : Bool) : Prop where
  /-- There are three parameters, in this order, and two of them have escaped values. -/
  parameters : ∃ lang' token', parameters query =
      [["lang".toList, lang'], ["status".toList, (if online then "true" else "false").toList],
        ["token".toList, token']] ∧
    decode? lang' = some (Bytes.ofText lang) ∧ decode? token' = some (Bytes.ofText token)
  spelled : Spelled ['&', '='] query

/-- An address, taken apart. -/
structure Told (server : Settings.Server) (token : String) (online : Bool) : Prop where
  /-- It has one question mark, and the query is behind it. -/
  query : ∃ front query, (address server token online).toList.splitOn '?' = [front, query] ∧
    front.splitOn '/' = [server.scheme.toList ++ [':'], [],
      server.host.toList ++ ':' :: (toString server.port.toNat).toList, "ws".toList] ∧
    Tells query server.lang token online
  /-- No fragment takes anything off the query. -/
  whole : '#' ∉ (address server token online).toList
  /-- Another language, flag or token makes another address, whatever the server. -/
  distinct : ∀ (server' : Settings.Server) token' online', Bare server'.host →
    address server' token' online' = address server token online →
    server'.lang = server.lang ∧ online' = online ∧ token' = token

section
variable (server : Settings.Server) (lang token : String) (online : Bool)

/-! ## Parts of an address -/

/-- Everything before the question mark. -/
def front : List Char :=
  ['/'].intercalate [server.scheme.toList ++ [':'], [],
    server.host.toList ++ ':' :: (toString server.port.toNat).toList, "ws".toList]

theorem toList_address : (address server token online).toList =
    ['?'].intercalate [front server, (query server.lang online token).toList] := by
  simp [address, front, List.intercalate]

theorem toList_query : (query lang online token).toList =
    ['&'].intercalate
      [['='].intercalate ["lang".toList, (encodeText lang).toList],
        ['='].intercalate ["status".toList, (flagText online).toList],
        ['='].intercalate ["token".toList, (encodeText token).toList]] := by
  simp [query, List.intercalate]

theorem not_mem_scheme {c : Char} (h : c ∉ "ws".toList) : c ∉ server.scheme.toList := by
  rw [Settings.Server.scheme]
  split <;> simp_all

theorem not_mem_port {c : Char} (h : c.isDigit = false) :
    c ∉ Nat.toDigits 10 server.port.toNat := by
  intro hmem
  rw [(Decimal.digits_toDigits server.port.toNat).digits c hmem] at h
  cases h

/-- What is neither in the host nor a mark of the address itself is not before the question mark. -/
theorem not_mem_front {c : Char} (hhost : c ∉ server.host.toList) (hdigit : c.isDigit = false)
    (hmark : c ∉ "ws:/".toList) : c ∉ front server := by
  have hscheme := not_mem_scheme server (c := c) (by simp_all)
  have hport := not_mem_port server hdigit
  simp_all [front]

/-! ## Taking it apart -/

theorem spelled_query : Spelled ['&', '='] (query lang online token).toList := by
  have hword : ∀ w ∈ ["lang", "status", "token", "true", "false"],
      Spelled ['&', '='] w.toList := by
    intro w hw
    refine spelled_of_unreserved (List.all_iff_forall_prop.mp ?_)
    simp only [List.mem_cons, List.not_mem_nil, or_false] at hw
    rcases hw with rfl | rfl | rfl | rfl | rfl <;> decide
  have hvalue : ∀ s, Spelled ['&', '='] (encodeText s).toList := by
    intro s
    rw [encodeText, String.toList_ofList]
    exact spelled_encode _ _
  have hflag : Spelled ['&', '='] (flagText online).toList := by
    cases online
    · exact hword "false" (by simp)
    · exact hword "true" (by simp)
  have hpair : ∀ {name value}, Spelled ['&', '='] name → Spelled ['&', '='] value →
      Spelled ['&', '='] (['='].intercalate [name, value]) := by
    intro name value hname hvalue
    simpa [List.intercalate] using hname.append (.mark (by simp) hvalue)
  rw [toList_query]
  simpa [List.intercalate] using (hpair (hword "lang" (by simp)) (hvalue lang)).append
    (.mark (c := '&') (by simp) ((hpair (hword "status" (by simp)) hflag).append
      (.mark (c := '&') (by simp) (hpair (hword "token" (by simp)) (hvalue token)))))

theorem not_mem_query {c : Char} (hc : ¬ Unreserved c) (hmark : c ∉ ['%', '&', '=']) :
    c ∉ (query lang online token).toList := by
  intro hmem
  rcases (spelled_query lang token online).mem hmem with h | h | h
  · exact hc h
  · exact hmark (h ▸ List.mem_cons_self)
  · exact hmark (List.mem_cons_of_mem _ h)

theorem parameters_query : parameters (query lang online token).toList =
    [["lang".toList, (encodeText lang).toList], ["status".toList, (flagText online).toList],
      ["token".toList, (encodeText token).toList]] := by
  have hflag : ∀ c ∈ ['&', '='], c ∉ (flagText online).toList :=
    List.all_iff_forall_prop.mp (by cases online <;> decide)
  have hvalue : ∀ c ∈ ['&', '='], ∀ s, c ∉ (encodeText s).toList := by
    have marks : ∀ c ∈ ['&', '='], ¬ Unreserved c ∧ c ≠ '%' :=
      List.all_iff_forall_prop.mp (by decide)
    intro c hc s
    exact not_mem_encodeText (marks c hc).1 (marks c hc).2 s
  have hpair : ∀ {name value : List Char}, '=' ∉ name → '=' ∉ value →
      (['='].intercalate [name, value]).splitOn '=' = [name, value] := by
    intro name value hname hvalue
    exact List.splitOn_intercalate '=' (by simp [hname, hvalue]) (by simp)
  rw [parameters, toList_query, List.splitOn_intercalate]
  · simp only [List.map_cons, List.map_nil]
    rw [hpair (by decide) (hvalue '=' (by simp) lang), hpair (by decide) (hflag '=' (by simp)),
      hpair (by decide) (hvalue '=' (by simp) token)]
  · have hlang := hvalue '&' (by simp) lang
    have htoken := hvalue '&' (by simp) token
    have hstatus := hflag '&' (by simp)
    simp [List.intercalate, hlang, htoken, hstatus]
  · simp

theorem tells_query : Tells (query lang online token).toList lang token online where
  parameters := by
    have hflag : flagText online = if online then "true" else "false" := rfl
    exact ⟨_, _, hflag ▸ parameters_query lang token online, decode?_encodeText lang,
      decode?_encodeText token⟩
  spelled := spelled_query lang token online

theorem split_front (h : Bare server.host) : (front server).splitOn '/' =
    [server.scheme.toList ++ [':'], [],
      server.host.toList ++ ':' :: (toString server.port.toNat).toList, "ws".toList] := by
  have hscheme := not_mem_scheme server (c := '/') (by decide)
  have hport := not_mem_port server (c := '/') rfl
  have hhost : '/' ∉ server.host.toList := fun hmem => (h '/' hmem).1 rfl
  exact List.splitOn_intercalate '/' (by simp [hscheme, hport, hhost]) (by simp)

theorem split_address (h : Bare server.host) : (address server token online).toList.splitOn '?' =
    [front server, (query server.lang online token).toList] := by
  have hfront : '?' ∉ front server :=
    not_mem_front server (fun hmem => (h '?' hmem).2.1 rfl) rfl (by decide)
  have hquery := not_mem_query server.lang token online (c := '?') (by decide) (by decide)
  rw [toList_address]
  exact List.splitOn_intercalate '?' (by simp [hfront, hquery]) (by simp)

end

/-- A query tells one thing only. -/
theorem Tells.unique {q : List Char} {lang lang' token token' : String} {online online' : Bool}
    (h : Tells q lang token online) (h' : Tells q lang' token' online') :
    lang = lang' ∧ online = online' ∧ token = token' := by
  obtain ⟨l, t, hq, hl, ht⟩ := h.parameters
  obtain ⟨l', t', hq', hl', ht'⟩ := h'.parameters
  rw [hq] at hq'
  simp only [List.cons.injEq, and_true, true_and] at hq'
  obtain ⟨rfl, hflag, rfl⟩ := hq'
  refine ⟨Bytes.ofText_injective (Option.some.inj (hl.symm.trans hl')), ?_,
    Bytes.ofText_injective (Option.some.inj (ht.symm.trans ht'))⟩
  revert hflag
  cases online <;> cases online' <;> decide

theorem address_told {server : Settings.Server} (h : Bare server.host) (token : String)
    (online : Bool) : Told server token online where
  query := ⟨front server, _, split_address server token online h, split_front server h,
    tells_query server.lang token online⟩
  whole := by
    have hfront : '#' ∉ front server :=
      not_mem_front server (fun hmem => (h '#' hmem).2.2 rfl) rfl (by decide)
    have hquery := not_mem_query server.lang token online (c := '#') (by decide) (by decide)
    rw [toList_address]
    simp [List.intercalate, hfront, hquery]
  distinct := by
    intro server' token' online' h' heq
    have hsplit := split_address server' token' online' h'
    rw [heq, split_address server token online h] at hsplit
    have hquery : (query server.lang online token).toList =
        (query server'.lang online' token').toList := by simpa using (List.cons.inj hsplit).2
    have htells := tells_query server'.lang token' online'
    rw [← hquery] at htells
    exact htells.unique (tells_query server.lang token online)

/-- A language and a token that are made of the marks of an address. -/
theorem told_of_marks : Bare "h.example" ∧
    address { host := "h.example", port := 1, lang := "&token=é" } "?#%=/" false =
      "ws://h.example:1/ws?lang=%26token%3D%C3%A9&status=false&token=%3F%23%25%3D%2F" ∧
    Told { host := "h.example", port := 1, lang := "&token=é" } "?#%=/" false := by
  have hbare : Bare "h.example" := List.all_iff_forall_prop.mp (by decide)
  exact ⟨hbare, by decide +kernel, address_told hbare _ _⟩

end GameLink.Link
