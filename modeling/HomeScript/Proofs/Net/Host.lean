import HomeScript.Net.Host
import HomeScript.Proofs.Json.Numeral
import HomeScript.Proofs.Net.DomainName
import HomeScript.Proofs.Net.Ip

/-! # Hosts and their texts

The host of a URL is written as a text that is read as the same host: a settled name that is no
number, four octets, or a compressed address in brackets.
-/

namespace HomeScript.Net.Host
open DomainName (IsSettled)

/-! ## Names -/

theorem bracketed?_of_not_mem {cs : List Char} (h : '[' ∉ cs) : bracketed? cs = none := by
  cases cs with
  | nil => rfl
  | cons c cs =>
    unfold bracketed?
    split
    · next heq =>
      obtain ⟨rfl, -⟩ := List.cons.inj heq
      exact absurd List.mem_cons_self h
    · rfl

theorem not_mem_of_isSettled {cs : List Char} (h : ∀ c ∈ cs, IsSettled c) {c : Char}
    (hc : DomainName.isForbidden c) : c ∉ cs := by
  intro hmem
  rw [(h c hmem).allowed] at hc
  cases hc

theorem parse_of_isSettled {cs : List Char} (h : ∀ c ∈ cs, IsSettled c) (hne : cs ≠ []) :
    parse cs = if endsInNumber cs then
      match ((labels cs).mapM number?).bind ipv4OfNumbers? with
      | some a => .ok (ipv4 a)
      | none => .error .invalidIpv4
    else .ok (name (String.ofList cs)) := by
  rw [parse, bracketed?_of_not_mem (not_mem_of_isSettled h (by decide)),
    DomainName.toAscii?_eq_self h]
  cases cs with
  | nil => exact absurd rfl hne
  | cons c cs => rfl

/-- A host is an address of either version or a settled name that is no number. -/
theorem parse_cases {cs : List Char} {host : Host} (h : parse cs = .ok host) :
    (∃ a, host = ipv6 a) ∨ (∃ a, host = ipv4 a)
      ∨ ∃ ascii, host = name (String.ofList ascii) ∧ ascii ≠ [] ∧ (∀ c ∈ ascii, IsSettled c)
        ∧ endsInNumber ascii = false := by
  unfold parse at h
  split at h
  · next bracketed hbracketed =>
    unfold bracketed? at hbracketed
    split at hbracketed
    · obtain rfl := Option.some.inj hbracketed
      split at h
      · exact .inl ⟨_, (Except.ok.inj h).symm⟩
      · cases h
    · cases hbracketed
  · split at h
    · cases h
    · cases h
    · next ascii hne hascii =>
      split at h
      · split at h
        · exact .inr (.inl ⟨_, (Except.ok.inj h).symm⟩)
        · cases h
      · next hnumber =>
        refine .inr (.inr ⟨ascii, (Except.ok.inj h).symm, ?_,
          DomainName.isSettled_of_toAscii? hascii, Bool.eq_false_iff.2 hnumber⟩)
        rintro rfl
        exact hne rfl

/-! ## Addresses of version four -/

theorem isSettled_of_isDigit {c : Char} (h : c.isDigit) : IsSettled c := by
  have hc := Char.isDigit_iff_toNat.1 h
  have hzero : '0'.toNat = 48 := rfl
  have hnine : '9'.toNat = 57 := rfl
  have hall : ∀ n < 58, 48 ≤ n → ((Char.ofNat n).toNat < 0x80
      ∧ (Char.ofNat n).toLower = Char.ofNat n) ∧ DomainName.isForbidden (Char.ofNat n) = false := by
    decide
  obtain ⟨hfolded, hallowed⟩ := hall c.toNat (by omega) (by omega)
  rw [Char.ofNat_toNat] at hfolded hallowed
  exact ⟨hfolded, hallowed⟩

theorem toList_text_ipv4 (a : Ipv4) :
    a.text.toList = ['.'].intercalate (a.octets.map (Nat.toDigits 10)) := by
  have hdigits : String.toList ∘ Nat.repr = Nat.toDigits 10 := by
    ext n
    simp [Nat.repr_eq_ofList_toDigits]
  rw [Ipv4.text, String.toList_intercalate, List.map_map, hdigits]
  rfl

theorem isSettled_text_ipv4 (a : Ipv4) : ∀ c ∈ a.text.toList, IsSettled c := by
  intro c hc
  rw [toList_text_ipv4] at hc
  rcases Text.mem_intercalate hc with rfl | ⟨piece, hpiece, hc⟩
  · exact ⟨⟨by decide, by decide⟩, by decide⟩
  · obtain ⟨n, -, rfl⟩ := List.mem_map.1 hpiece
    exact isSettled_of_isDigit (Json.isDigit_toDigits c hc)

theorem number?_toDigits (n : ℕ) : number? (Nat.toDigits 10 n) = some n := by
  have hdigits : (Nat.toDigits 10 n).all Char.isDigit := List.all_eq_true.2 Json.isDigit_toDigits
  have hvalue : Nat.ofDigitChars 10 (Nat.toDigits 10 n) 0 = n := Nat.ofDigitChars_ten_toDigits
  rcases Json.toDigits_no_leading_zero n with hzero | hhead
  · rw [hzero] at hvalue ⊢
    rw [← hvalue]
    rfl
  · unfold number?
    split
    · next hnil => exact absurd hnil Nat.toDigits_ne_nil
    · next hcons => simp [hcons] at hhead
    · rw [if_pos hdigits, hvalue]

theorem labels_octets (a : Ipv4) : labels a.text.toList = a.octets.map (Nat.toDigits 10) := by
  have hpoint : ∀ piece ∈ a.octets.map (Nat.toDigits 10), '.' ∉ piece := by
    intro piece hpiece hmem
    obtain ⟨n, -, rfl⟩ := List.mem_map.1 hpiece
    exact absurd (Json.isDigit_toDigits '.' hmem) (by decide)
  have hsplit : a.text.toList.splitOn '.' = a.octets.map (Nat.toDigits 10) := by
    rw [toList_text_ipv4, List.splitOn_intercalate '.' hpoint (by simp [Ipv4.octets])]
  unfold labels
  rw [hsplit]
  split
  · next hlast =>
    have hnil : [] ∈ a.octets.map (Nat.toDigits 10) := by
      rw [← List.mem_reverse, hlast]
      exact List.mem_cons_self
    obtain ⟨n, -, hn⟩ := List.mem_map.1 hnil
    exact absurd hn Nat.toDigits_ne_nil
  · exact List.reverse_reverse _

theorem endsInNumber_octets (a : Ipv4) : endsInNumber a.text.toList := by
  rw [endsInNumber, labels_octets]
  have hdigits : (Nat.toDigits 10 (a.value.toNat % 256)).all Char.isDigit :=
    List.all_eq_true.2 Json.isDigit_toDigits
  simp [Ipv4.octets, hdigits, Nat.toDigits_ne_nil]

theorem ipv4OfNumbers?_octets (a : Ipv4) : ipv4OfNumbers? a.octets = some a := by
  have hlt := a.value.toNat_lt
  have hvalue : (((0 * 256 + a.value.toNat >>> 24) * 256 + a.value.toNat >>> 16 % 256) * 256
      + a.value.toNat >>> 8 % 256) <<< 8 + a.value.toNat % 256 = a.value.toNat := by
    simp only [Nat.shiftRight_eq_div_pow, Nat.shiftLeft_eq]
    omega
  have hfirst : ¬ 255 < a.value.toNat >>> 24 := by
    rw [Nat.shiftRight_eq_div_pow]
    omega
  have hothers (n : ℕ) : ¬ 255 < n % 256 := by omega
  have hlast : ¬ 1 <<< 8 ≤ a.value.toNat % 256 := by
    rw [Nat.shiftLeft_eq]
    omega
  have hreverse : a.octets.reverse = [a.value.toNat % 256, a.value.toNat >>> 8 % 256,
      a.value.toNat >>> 16 % 256, a.value.toNat >>> 24] := rfl
  rw [ipv4OfNumbers?, hreverse]
  simp only [List.length_cons, List.length_nil, List.any_cons, List.any_nil, hothers, hfirst,
    decide_false, Bool.or_false, Bool.or_self, List.reverse_cons, List.reverse_nil, List.nil_append,
    List.cons_append, List.foldl_cons, List.foldl_nil, hvalue]
  rw [if_neg (by simpa using hlast)]
  simp

theorem mapM_number?_toDigits (ns : List ℕ) :
    (ns.map (Nat.toDigits 10)).mapM number? = some ns := by
  induction ns with
  | nil => rfl
  | cons n ns ih =>
    rw [List.map_cons, List.mapM_cons, number?_toDigits, ih]
    rfl

theorem text_ipv4_ne_nil (a : Ipv4) : a.text.toList ≠ [] := by
  intro hnil
  have hends := endsInNumber_octets a
  rw [hnil] at hends
  cases hends

theorem parse_text_ipv4 (a : Ipv4) : parse (ipv4 a).text.toList = .ok (ipv4 a) := by
  rw [text, parse_of_isSettled (isSettled_text_ipv4 a) (text_ipv4_ne_nil a),
    if_pos (endsInNumber_octets a), labels_octets, mapM_number?_toDigits, Option.bind_some,
    ipv4OfNumbers?_octets]

/-! ## Addresses of version six -/

theorem toList_text_ipv6 (a : Ipv6) :
    (ipv6 a).text.toList = '[' :: (a.compressed.toList ++ [']']) := by
  simp [text]

theorem parse_text_ipv6 (a : Ipv6) : parse (ipv6 a).text.toList = .ok (ipv6 a) := by
  rw [toList_text_ipv6, parse, bracketed?]
  simp [Ipv6.parse_compressed]

/-! ## All hosts -/

/-- A host is read back from its text. -/
theorem parse_text {cs : List Char} {host : Host} (h : parse cs = .ok host) :
    parse host.text.toList = .ok host := by
  rcases parse_cases h with ⟨a, rfl⟩ | ⟨a, rfl⟩ | ⟨ascii, rfl, hne, hsettled, hnumber⟩
  · exact parse_text_ipv6 a
  · exact parse_text_ipv4 a
  · rw [text, String.toList_ofList, parse_of_isSettled hsettled hne, hnumber]
    rfl

end HomeScript.Net.Host
