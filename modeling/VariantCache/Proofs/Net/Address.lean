import Mathlib
import VariantCache.Net.Address

/-!
# The port of an address

Each reader takes something off the front of a text and leaves the rest of it, so what an address
leaves to its port stands at the end of the text. A host and a port written with a colon between
them are therefore read as an address of that port, whatever the host (`port_of_parse?`): the
port is what stands after the last colon.
-/

namespace VariantCache.Net.Address

/-! ### What is left of a text -/

theorem suffix_of_decimal? {limit n : Nat} {cs rest : List Char}
    (h : decimal? limit cs = some (n, rest)) : rest <:+ cs := by
  obtain ⟨m, -, same⟩ := Option.map_eq_some_iff.1 h
  rw [← (Prod.mk.inj same).2]
  exact List.dropWhile_suffix _

theorem eq_cons_of_char? {c : Char} {cs rest : List Char} (h : char? c cs = some rest) :
    cs = c :: rest := by
  cases cs with
  | nil => cases h
  | cons d tail =>
    rw [char?] at h
    split at h
    · next same => rw [same, Option.some.inj h]
    · cases h

theorem suffix_of_char? {c : Char} {cs rest : List Char} (h : char? c cs = some rest) :
    rest <:+ cs := by
  rw [eq_cons_of_char? h]
  exact List.suffix_cons c rest

theorem suffix_of_byte? {n : Nat} {cs rest : List Char} (h : byte? cs = some (n, rest)) :
    rest <:+ cs := by
  simp only [byte?] at h
  split at h
  · cases h
  · exact suffix_of_decimal? h

theorem suffix_of_v4? {bytes : List Nat} {cs rest : List Char} (h : v4? cs = some (bytes, rest)) :
    rest <:+ cs := by
  simp only [v4?, Option.bind_eq_bind, Option.bind_eq_some_iff, Option.pure_def, Option.some.injEq,
    Prod.mk.injEq] at h
  obtain ⟨⟨a, rest₁⟩, h₁, cs₁, d₁, ⟨b, rest₂⟩, h₂, cs₂, d₂, ⟨c, rest₃⟩, h₃, cs₃, d₃, ⟨d, rest₄⟩, h₄,
    -, rfl⟩ := h
  calc rest₄ <:+ cs₃ := suffix_of_byte? h₄
    _ <:+ rest₃ := suffix_of_char? d₃
    _ <:+ cs₂ := suffix_of_byte? h₃
    _ <:+ rest₂ := suffix_of_char? d₂
    _ <:+ cs₁ := suffix_of_byte? h₂
    _ <:+ rest₁ := suffix_of_char? d₁
    _ <:+ cs := suffix_of_byte? h₁

theorem suffix_of_group? {n : Nat} {cs rest : List Char} (h : group? cs = some (n, rest)) :
    rest <:+ cs := by
  simp only [group?] at h
  split at h
  · cases h
  · obtain ⟨m, -, same⟩ := Option.map_eq_some_iff.1 h
    rw [← (Prod.mk.inj same).2]
    exact List.drop_suffix _ _

theorem suffix_groups (left : Nat) (isFirst : Bool) (cs : List Char) :
    (groups left isFirst cs).2.2 <:+ cs := by
  induction left generalizing isFirst cs with
  | zero => exact List.suffix_refl cs
  | succ left ih =>
    unfold groups
    split
    · exact List.suffix_refl cs
    · next body begun =>
      have inside : body <:+ cs := by
        split at begun
        · rw [Option.some.inj begun]
        · exact suffix_of_char? begun
      split
      · next a b c d rest v4 =>
        split at v4
        · exact (suffix_of_v4? v4).trans inside
        · cases v4
      · split
        · exact List.suffix_refl cs
        · next group rest read =>
          exact (ih false rest).trans ((suffix_of_group? read).trans inside)

theorem suffix_of_v6? {found : List Nat} {cs rest : List Char} (h : v6? cs = some (found, rest)) :
    rest <:+ cs := by
  have front := suffix_groups 8 true cs
  unfold v6? at h
  generalize groups 8 true cs = read at h front
  obtain ⟨first, endsInV4, left⟩ := read
  simp only [Option.bind_eq_bind] at h front
  split at h
  · obtain ⟨-, rfl⟩ := Prod.mk.inj (Option.some.inj h)
    exact front
  split at h
  · cases h
  simp only [Option.pure_def, Option.bind_eq_some_iff, Option.some.injEq, Prod.mk.injEq] at h
  obtain ⟨one, h₁, both, h₂, -, rfl⟩ := h
  calc (groups (7 - first.length) true both).2.2 <:+ both := suffix_groups _ _ _
    _ <:+ one := suffix_of_char? h₂
    _ <:+ left := suffix_of_char? h₁
    _ <:+ cs := front

theorem suffix_of_zone? {n : Nat} {cs rest : List Char} (h : zone? cs = some (n, rest)) :
    rest <:+ cs := by
  unfold zone? at h
  split at h
  · exact (suffix_of_decimal? h).trans (List.suffix_cons _ _)
  · obtain ⟨-, rfl⟩ := Prod.mk.inj (Option.some.inj h)
    exact List.suffix_refl _

theorem suffix_of_host? {host : Host} {cs rest : List Char} (h : host? cs = some (host, rest)) :
    rest <:+ cs := by
  unfold host? at h
  split at h
  · next inside =>
    simp only [Option.bind_eq_bind, Option.bind_eq_some_iff, Option.pure_def, Option.some.injEq,
      Prod.mk.injEq] at h
    obtain ⟨⟨found, rest₁⟩, h₁, ⟨zone, rest₂⟩, h₂, rest₃, h₃, -, rfl⟩ := h
    calc rest₃ <:+ rest₂ := suffix_of_char? h₃
      _ <:+ rest₁ := suffix_of_zone? h₂
      _ <:+ inside := suffix_of_v6? h₁
      _ <:+ '[' :: inside := List.suffix_cons _ _
  · split at h
    · next v4 =>
      obtain ⟨-, rfl⟩ := Prod.mk.inj (Option.some.inj h)
      exact suffix_of_v4? v4
    · cases h

/-! ### The port -/

/-- Of two texts that end one text, each a mark and then characters that are no mark, the
characters are the same. -/
theorem eq_of_suffix_cons {c : Char} {cs a b : List Char} (ha : c :: a <:+ cs) (hb : c :: b <:+ cs)
    (absent : c ∉ a) (absent' : c ∉ b) : a = b := by
  have inside {a b : List Char} (ends : c :: a <:+ c :: b) (absent' : c ∉ b) : a = b := by
    rcases List.suffix_cons_iff.1 ends with same | deeper
    · exact (List.cons.inj same).2
    · exact absurd (deeper.subset List.mem_cons_self) absent'
  rcases List.suffix_or_suffix_of_suffix ha hb with ends | ends
  · exact inside ends absent'
  · exact (inside ends absent).symm

theorem colon_notMem_of_digits {digits : List Char} (h : ∀ c ∈ digits, c.isDigit) : ':' ∉ digits :=
  fun member => absurd (h ':' member) (by decide)

theorem ofDigits?_toDigits {limit n m : Nat}
    (h : Natural.ofDigits? limit (Nat.toDigits 10 n) = some m) : m = n := by
  unfold Natural.ofDigits? at h
  split at h
  · cases h
  · rw [(Natural.le_of_within? h).1]
    exact Nat.ofDigitChars_toDigits (by decide) (by decide)

/-- **A host and a port are read as an address of that port.** -/
theorem port_of_parse? {host : String} {port : Nat} {a : Address}
    (h : parse? s!"{host}:{port}" = some a) : a.port = port := by
  have written : s!"{host}:{port}".toList = host.toList ++ ':' :: Nat.toDigits 10 port := by
    show (host ++ ":" ++ port.repr).toList = _
    rw [String.toList_append, String.toList_append, Nat.toList_repr, List.append_assoc]
    rfl
  unfold parse? at h
  rw [written] at h
  simp only [Option.bind_eq_bind, Option.bind_eq_some_iff] at h
  obtain ⟨⟨found, rest⟩, hostRead, digits, colon, ⟨n, left⟩, portRead, h⟩ := h
  simp only at colon portRead h
  split at h
  case isFalse => cases h
  next whole =>
  obtain rfl := Option.some.inj h
  obtain ⟨m, value, same⟩ := Option.map_eq_some_iff.1 portRead
  obtain ⟨rfl, ends⟩ := Prod.mk.inj same
  rw [List.isEmpty_iff] at whole
  -- All that is left after the colon of the address is digits, as after the colon that was written.
  have all : digits.takeWhile Char.isDigit = digits := by
    have parts := List.takeWhile_append_dropWhile (p := Char.isDigit) (l := digits)
    rwa [ends, whole, List.append_nil] at parts
  have isDigit : ∀ c ∈ digits, c.isDigit := by
    intro c hc
    rw [← all] at hc
    exact List.mem_takeWhile_imp hc
  have read : ':' :: digits <:+ host.toList ++ ':' :: Nat.toDigits 10 port := by
    rw [← eq_cons_of_char? colon]
    exact suffix_of_host? hostRead
  have port : digits = Nat.toDigits 10 port :=
    eq_of_suffix_cons read (List.suffix_append _ _) (colon_notMem_of_digits isDigit)
      (colon_notMem_of_digits fun c hc => Nat.isDigit_of_mem_toDigits (by decide) (by decide) hc)
  rw [all, port] at value
  exact ofDigits?_toDigits value

end VariantCache.Net.Address
