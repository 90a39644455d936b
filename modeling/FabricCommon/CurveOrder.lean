import Mathlib.Data.List.Prime
import Mathlib.NumberTheory.LucasPrimality
import Mathlib.Tactic.NormNum.Prime
import Mathlib.Tactic.ReduceModChar

namespace CurveOrder

/-- The Lucas test on a number whose predecessor is factored. -/
theorem prime_of_factors {p : ℕ} (a : ZMod p) (factors : List ℕ)
    (primes : ∀ f ∈ factors, f.Prime) (product : factors.prod = p - 1)
    (returns : a ^ (p - 1) = 1) (before : ∀ f ∈ factors, a ^ ((p - 1) / f) ≠ 1) : p.Prime := by
  refine lucas_primality p a returns ?_
  intro q hq divides
  rw [← product] at divides
  obtain ⟨f, listed, hf⟩ := (Prime.dvd_prod_iff hq.prime).mp divides
  rw [(Nat.prime_dvd_prime_iff_eq hq (primes f listed)).mp hf]
  exact before f listed

theorem prime_208150935158385979 : Nat.Prime 208150935158385979 := by
  refine prime_of_factors 2 [2, 3, 11, 43, 127, 3023, 191039911] ?_ (by norm_num)
    (by reduce_mod_char) ?_
  · simp only [List.forall_mem_cons]
    norm_num
  · simp only [List.forall_mem_cons]
    norm_num
    reduce_mod_char
    decide

theorem prime_2624747550333869278416773953 : Nat.Prime 2624747550333869278416773953 := by
  refine prime_of_factors 7 [2, 2, 2, 2, 2, 2, 3, 3, 1297, 16879, 208150935158385979] ?_
    (by norm_num) (by reduce_mod_char) ?_
  · simp only [List.forall_mem_cons]
    have last := prime_208150935158385979
    exact ⟨by norm_num, by norm_num, by norm_num, by norm_num, by norm_num, by norm_num,
      by norm_num, by norm_num, by norm_num, by norm_num, last, by simp⟩
  · simp only [List.forall_mem_cons]
    norm_num
    reduce_mod_char
    decide

theorem prime_1002328039319 : Nat.Prime 1002328039319 := by
  refine prime_of_factors 19 [2, 126241, 3969899] ?_ (by norm_num) (by reduce_mod_char) ?_
  · simp only [List.forall_mem_cons]
    norm_num
  · simp only [List.forall_mem_cons]
    norm_num
    reduce_mod_char
    decide

theorem prime_311245691 : Nat.Prime 311245691 := by
  refine prime_of_factors 2 [2, 5, 7, 17, 29, 29, 311] ?_ (by norm_num) (by reduce_mod_char) ?_
  · simp only [List.forall_mem_cons]
    norm_num
  · simp only [List.forall_mem_cons]
    norm_num
    reduce_mod_char
    decide

theorem prime_622491383 : Nat.Prime 622491383 := by
  refine prime_of_factors 5 [2, 311245691] ?_ (by norm_num) (by reduce_mod_char) ?_
  · simp only [List.forall_mem_cons]
    have last := prime_311245691
    exact ⟨by norm_num, last, by simp⟩
  · simp only [List.forall_mem_cons]
    norm_num
    reduce_mod_char
    decide

/-- The order of P-256. -/
abbrev orderP256 : ℕ :=
  115792089210356248762697446949407573529996955224135760342422259061068512044369

def factorsP256 : List ℕ :=
  [2, 2, 2, 2, 3, 71, 131, 373, 3407, 17449, 38189, 187019741, 622491383, 1002328039319,
    2624747550333869278416773953]

theorem factorsP256_prime : ∀ f ∈ factorsP256, f.Prime := by
  simp only [factorsP256, List.forall_mem_cons]
  exact ⟨by norm_num, by norm_num, by norm_num, by norm_num, by norm_num, by norm_num,
    by norm_num, by norm_num, by norm_num, by norm_num, by norm_num, by norm_num,
    prime_622491383, prime_1002328039319, prime_2624747550333869278416773953, by simp⟩

theorem factorsP256_prod : factorsP256.prod = orderP256 - 1 := by simp [factorsP256]

theorem seven_returns : (7 : ZMod orderP256) ^ (orderP256 - 1) = 1 := by
  unfold orderP256
  reduce_mod_char

theorem seven_not_before : ∀ f ∈ factorsP256, (7 : ZMod orderP256) ^ ((orderP256 - 1) / f) ≠ 1 := by
  simp only [factorsP256, orderP256, List.forall_mem_cons]
  refine ⟨?_, ?_, ?_, ?_, ?_, ?_, ?_, ?_, ?_, ?_, ?_, ?_, ?_, ?_, ?_, by simp⟩
  all_goals
    norm_num
    reduce_mod_char
    decide

theorem prime_P256 : Nat.Prime orderP256 :=
  prime_of_factors 7 factorsP256 factorsP256_prime factorsP256_prod seven_returns seven_not_before

end CurveOrder
