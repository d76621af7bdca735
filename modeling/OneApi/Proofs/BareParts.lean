import Mathlib.Data.List.TakeDrop
import OneApi.Proofs.PathSegments

/-! Parts of addresses that can be told apart. A question mark begins a query and a hash begins a
fragment, so neither can stand in a part before them: user and path are encoded, hosts do not allow
such marks, and ports and numeric hosts are digits with their separators. -/

namespace OneApi.Url

/-- Begins neither a query nor a fragment. -/
def Bare (s : List Char) : Prop := ∀ c ∈ s, isPathChar c = true

theorem bare_append {s t : List Char} : Bare (s ++ t) ↔ Bare s ∧ Bare t := List.forall_mem_append

theorem bare_cons {c : Char} {s : List Char} : Bare (c :: s) ↔ isPathChar c = true ∧ Bare s :=
  List.forall_mem_cons

theorem bare_nil : Bare [] := by simp [Bare]

theorem Bare.ne_question {s : List Char} (h : Bare s) : ∀ c ∈ s, (c != '?') = true := fun c hc => by
  have hc := h c hc
  rw [isPathChar, Bool.and_eq_true] at hc
  exact hc.1

theorem isPathChar_hexDigit : ∀ n < 16, isPathChar (Text.hexDigit n) = true := by decide

theorem bare_percentEncode {keep : Char → Bool} {s : List Char}
    (h : ∀ c ∈ s, keep c = true → isPathChar c = true) : Bare (Text.percentEncode keep s) := by
  intro c hc
  rcases Text.mem_percentEncode hc with ⟨hk, hcs⟩ | rfl | ⟨n, hn, rfl⟩
  · exact h c hcs hk
  · decide
  · exact isPathChar_hexDigit n hn

theorem isPathChar_of_ne {c : Char} (hq : c ≠ '?') (hf : c ≠ '#') : isPathChar c = true := by
  simp [isPathChar, hq, hf]

theorem bare_encode {marks : List Char} (hm : '?' ∈ marks ∧ '#' ∈ marks) (s : List Char) :
    Bare (encode marks s) := by
  refine bare_percentEncode fun c _ hk => isPathChar_of_ne ?_ ?_ <;> rintro rfl
  · simp [keepExcept, hm.1] at hk
  · simp [keepExcept, hm.2] at hk

/-! ## Numbers -/

theorem isPathChar_digitChar : ∀ n < 16, isPathChar (Nat.digitChar n) = true := by decide

theorem bare_toDigits {b : Nat} (h1 : 1 < b) (h16 : b ≤ 16) (n : Nat) : Bare (Nat.toDigits b n) := by
  induction n using Nat.strongRecOn with
  | ind n ih =>
    by_cases hn : n < b
    · rw [Nat.toDigits_of_lt_base hn]
      exact List.forall_mem_singleton.mpr (isPathChar_digitChar n (by omega))
    · have hpos : 0 < n := by omega
      rw [Nat.toDigits_of_base_le h1 (by omega), bare_append]
      have hlast := Nat.mod_lt n (show 0 < b by omega)
      exact ⟨ih _ (Nat.div_lt_self hpos h1),
        List.forall_mem_singleton.mpr (isPathChar_digitChar _ (by omega))⟩

theorem bare_decimal (n : Nat) : Bare (Text.decimal n) := bare_toDigits (by decide) (by decide) n

theorem bare_ipv4Text (a : UInt32) : Bare (ipv4Text a) := by
  simp only [ipv4Text, bare_append, bare_cons, bare_decimal]
  decide

theorem bare_groupsText (gs : List Nat) : Bare (groupsText gs) := by
  unfold groupsText
  induction gs with
  | nil => exact bare_nil
  | cons g gs ih =>
    have hg : Bare (Nat.toDigits 16 g) := bare_toDigits (by decide) (by decide) g
    cases gs with
    | nil => simpa using hg
    | cons g' gs =>
      rw [List.map_cons] at ih ⊢
      rw [List.map_cons, List.intercalate_cons_cons, bare_append, bare_append]
      exact ⟨⟨hg, by simp [Bare]; decide⟩, ih⟩

theorem bare_ipv6Text (gs : List Nat) : Bare (ipv6Text gs) := by
  have hcolon : isPathChar ':' = true := by decide
  unfold ipv6Text
  dsimp only
  split
  · exact bare_groupsText gs
  · simp only [bare_append, bare_cons, bare_groupsText, hcolon, and_self]

/-! ## Authorities -/

theorem isPathChar_of_isDomainChar {c : Char} (h : Host.isDomainChar c = true) :
    isPathChar c = true := by
  apply isPathChar_of_ne <;> rintro rfl <;> revert h <;> decide

theorem isPathChar_of_foreign {c : Char}
    (h : (c == '\x00' || Host.delimiters.contains c) = false) : isPathChar c = true := by
  apply isPathChar_of_ne <;> rintro rfl <;> revert h <;> decide

theorem bare_bracketed {s : List Char} {h : Host} (hh : Host.bracketed s = .ok h) : Bare h.text := by
  unfold Host.bracketed at hh
  split at hh
  · cases hr : readIpv6 s.dropLast with
    | error e => simp [hr, Except.map] at hh
    | ok gs =>
      simp only [hr, Except.map, Except.ok.injEq] at hh
      subst hh
      simp only [Host.text, bare_append, bare_cons, bare_ipv6Text]
      exact ⟨⟨by decide, trivial⟩, by decide, bare_nil⟩
  · cases hh

theorem bare_host_of_read [DomainNames] {s : List Char} {h : Host} (hh : Host.read s = .ok h) :
    Bare h.text := by
  unfold Host.read at hh
  split at hh
  · exact bare_bracketed hh
  · unfold Host.readDomain at hh
    split at hh
    · cases hh
    · rename_i domain hdomain
      split at hh
      · cases hh
      · split at hh
        · generalize readIpv4 _ = address at hh
          cases address with
          | error e => cases hh
          | ok a =>
            cases hh
            exact bare_ipv4Text a
        · cases hh
          intro c hc
          exact isPathChar_of_isDomainChar (DomainNames.isDomainChar hdomain c hc)

theorem bare_host_of_readForeign {s : List Char} {h : Host} (hh : Host.readForeign s = .ok h) :
    Bare h.text := by
  unfold Host.readForeign at hh
  split at hh
  · exact bare_bracketed hh
  · split at hh
    · cases hh
    · rename_i hany
      cases hh
      rw [List.any_eq_true, not_exists] at hany
      exact bare_percentEncode fun c hc _ =>
        isPathChar_of_foreign (Bool.eq_false_iff.mpr fun h => hany c ⟨hc, h⟩)

theorem Authority.bare_text {a : Authority} (hu : Bare a.user) (hp : Bare a.password)
    (hh : Bare a.host.text) : Bare a.text := by
  have hat : isPathChar '@' = true := by decide
  have hcolon : isPathChar ':' = true := by decide
  have hcredentials : Bare a.credentials := by
    unfold Authority.credentials
    split
    · exact bare_nil
    · split <;> simp [bare_append, bare_cons, bare_nil, hu, hp, hat, hcolon]
  unfold Authority.text
  rw [bare_append, bare_append]
  refine ⟨⟨hcredentials, hh⟩, ?_⟩
  split
  · exact bare_nil
  · exact bare_cons.mpr ⟨hcolon, bare_decimal _⟩

theorem bare_of_readAuthority [DomainNames] {k : Kind} {s after back : List Char} {a : Authority}
    (h : readAuthority k s after = .ok (a, back)) : Bare a.text := by
  have hmarks : '?' ∈ userMarks ∧ '#' ∈ userMarks := by decide
  have hbare {user password : List Char} {host : Host} {port : Option UInt16}
      (hh : Bare host.text) :
      Bare (Authority.text ⟨encode userMarks user, encode userMarks password, host, port⟩) :=
    Authority.bare_text (bare_encode hmarks _) (bare_encode hmarks _) hh
  unfold readAuthority at h
  simp only [bind, Except.bind, pure, Except.pure] at h
  by_cases hk : k.isSpecial = true
  · simp only [if_pos hk] at h
    repeat' split at h
    all_goals cases h
    all_goals exact hbare (bare_host_of_read ‹_›)
  · simp only [if_neg hk] at h
    repeat' split at h
    all_goals cases h
    all_goals exact hbare (bare_host_of_readForeign ‹_›)

/-! ## Paths -/

def BarePath (segs : List Segment) : Prop := ∀ t ∈ segs, Bare t

namespace Path

variable {k : Kind} {done segs : List Segment} {s : Segment} {P : Segment → Prop}

theorem forall_finish (h : ∀ t ∈ segs, P t) : ∀ t ∈ finish k segs, P t := by
  unfold finish
  split
  · fun_induction dropEmpty segs with
    | case1 s rest ih => exact ih fun t ht => h t (List.mem_cons_of_mem _ ht)
    | case2 segs => exact h
  · exact h

theorem bare_spellDrive (h : BarePath segs) : BarePath (spellDrive segs) := by
  unfold spellDrive
  split
  · rename_i c rest
    split
    · have hdrive : Bare [c, ':'] :=
        bare_cons.mpr ⟨h _ List.mem_cons_self c List.mem_cons_self, bare_cons.mpr ⟨by decide, bare_nil⟩⟩
      exact List.forall_mem_cons.mpr ⟨hdrive, fun t ht => h t (List.mem_cons_of_mem _ ht)⟩
    · exact h
  · exact h

theorem bare_finishSpelled (h : BarePath segs) : BarePath (finishSpelled k segs) := by
  apply forall_finish
  split
  · exact bare_spellDrive h
  · exact h

theorem bare_segments (k : Kind) (text : List Char) : BarePath (segments k text) := by
  unfold segments
  split
  · simp [BarePath]
  · apply forall_resolve bare_nil (by simp)
    intro t ht _ _
    obtain ⟨raw, _, rfl⟩ := List.mem_map.mp ht
    exact bare_encode (by decide) raw

theorem bare_push (raw : List Char) (h : BarePath done) : BarePath (push k done raw) := by
  have hraw : Bare (encode (if k.isSpecial then '\\' :: segmentMarks else segmentMarks)
      (dropTabs raw)) := by
    apply bare_encode
    split <;> decide
  unfold push
  split
  · exact h
  · dsimp only
    split
    · exact bare_finishSpelled (forall_place true bare_nil (by simp) fun _ _ => hraw)
    · exact forall_finish (forall_place true bare_nil h fun _ _ => hraw)

theorem bare_append (more : List (List Char)) (h : BarePath segs) :
    BarePath (append k segs more) := by
  have hpop : BarePath (popEmpty segs) := by
    unfold popEmpty
    split
    · exact fun t ht => h t (List.dropLast_subset _ ht)
    · exact h
  unfold append
  split
  · exact h
  · rename_i hmore
    clear h hmore
    generalize popEmpty segs = done at hpop
    induction more generalizing done with
    | nil => exact hpop
    | cons raw more ih => exact ih _ (bare_push raw hpop)

end Path

/-! ## Bases -/

theorem bare_scheme {s scheme rest : List Char} (h : splitScheme s = some (scheme, rest)) :
    Bare scheme := by
  unfold splitScheme at h
  rw [List.span_eq_takeWhile_dropWhile] at h
  split at h
  · rename_i c name rest' hspan
    split at h
    · cases h
      have hall := List.all_takeWhile (p := isSchemeChar) (l := s)
      rw [(Prod.mk.inj hspan).1] at hall
      intro d hd
      obtain ⟨e, he, rfl⟩ := List.mem_map.mp hd
      have hscheme := List.all_eq_true.mp hall e he
      apply isPathChar_of_ne <;> intro hlower <;>
        rw [toLower_eq_of_lt (by decide) hlower] at hscheme <;> revert hscheme <;> decide
    · cases h
  · cases h

theorem bare_origin {u : Url} (hs : Bare u.scheme) (ha : ∀ a, u.authority = some a → Bare a.text) :
    Bare u.origin := by
  have hcolon : isPathChar ':' = true := by decide
  have hslash : isPathChar '/' = true := by decide
  unfold origin
  rw [bare_append, bare_cons]
  refine ⟨hs, hcolon, ?_⟩
  split
  · exact bare_nil
  · rename_i a hauthority
    exact bare_cons.mpr ⟨hslash, bare_cons.mpr ⟨hslash, ha a hauthority⟩⟩

variable [DomainNames]

theorem bare_of_readWithAuthority {scheme s : List Char} {u : Url} (hs : Bare scheme)
    (h : readWithAuthority scheme s = .ok u) : Bare u.origin := by
  unfold readWithAuthority at h
  simp only [bind, Except.bind, pure, Except.pure] at h
  split at h
  · cases h
  · rename_i hauthority
    cases h
    refine bare_origin hs fun a ha => ?_
    cases ha
    exact bare_of_readAuthority hauthority

theorem bare_host_of_readFileHost {s : List Char} {h : Host} (hh : readFileHost s = .ok h) :
    Bare h.text := by
  unfold readFileHost at hh
  split at hh
  · cases hh
    exact bare_nil
  · cases hr : Host.read s with
    | error e => simp [hr, Except.map] at hh
    | ok host =>
      simp only [hr, Except.map, Except.ok.injEq] at hh
      subst hh
      split
      · exact bare_nil
      · exact bare_host_of_read hr

theorem bare_of_readFile {scheme s : List Char} {u : Url} (hs : Bare scheme)
    (h : readFile scheme s = .ok u) : Bare u.origin := by
  have hbare {host : Host} {path : Path} {tail : List Char} (hh : Bare host.text) :
      Bare (assemble scheme (some { noHost with host }) path tail).origin := by
    refine bare_origin hs fun a ha => ?_
    cases ha
    exact Authority.bare_text bare_nil bare_nil hh
  have hnone : Bare (Host.text (.name [])) := bare_nil
  unfold readFile at h
  simp only [bind, Except.bind, pure, Except.pure] at h
  split at h
  · cases h
  · rename_i host hhost
    have hread := bare_host_of_readFileHost hhost
    -- the host is the one that was read, or there is none
    repeat' split at h
    all_goals
      cases h
      refine hbare ?_
    all_goals simp only [hnone, hread]

theorem bare_of_readForeign {scheme s : List Char} {u : Url} (hs : Bare scheme)
    (h : readForeign scheme s = .ok u) : Bare u.origin := by
  unfold readForeign at h
  split at h
  · exact bare_of_readWithAuthority hs h
  · cases h
    exact bare_origin hs fun a ha => (by cases ha)
  · cases h
    exact bare_origin hs fun a ha => (by cases ha)

/-- What stands before the path of an address that was read begins neither query nor fragment. -/
theorem bare_of_parse {s : List Char} {u : Url} (h : parse s = .ok u) : Bare u.origin := by
  unfold parse at h
  dsimp only at h
  split at h
  · cases h
  · rename_i scheme rest hsplit
    have hs := bare_scheme hsplit
    split at h
    · exact bare_of_readWithAuthority hs h
    · exact bare_of_readFile hs h
    · exact bare_of_readForeign hs h

end OneApi.Url
