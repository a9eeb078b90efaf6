import BlockExplorer.Proofs.Command.Redaction
import BlockExplorer.Proofs.Request.Cleaning

/-!
# BlockExplorer — requests that are polled

Each time a request is sent again, another cache-buster is appended to its
address. Since an address is cleaned parameter by parameter, one behind an `&`
leaves nothing, wherever it stands, and what the query command does is that
of the request without it.

Main result: `cleansTo_and_sameOutcome`.
-/

namespace BlockExplorer.Command

/-- The query command sees an address only as cleaned. -/
theorem sameOutcome_of_strip {url url' : Text}
    (h : Url.stripCacheBusters url = Url.stripCacheBusters url') (config : Config) :
    SameOutcome config url url' := by
  apply sameOutcome_of_parameters
  rw [Url.parameters, Url.parameters, h]

/-- **Cache-busters at the end of a parameter change nothing.** Cleaning leaves what stands before
the first `&` and what remains of each parameter behind it. So a cache-buster that is put behind an
address, or between it and more parameters, makes no difference to the cleaning, and
none to the query command. -/
theorem cleansTo_and_sameOutcome (url : Text) :
    (∀ t, Url.stripCacheBusters url = t ↔ Url.CleansTo url t) ∧
    ∀ buster, Url.IsBuster buster →
      Url.stripCacheBusters (url ++ '&' :: buster) = Url.stripCacheBusters url ∧
      (∀ config, SameOutcome config (url ++ '&' :: buster) url) ∧
      ∀ after,
        Url.stripCacheBusters (url ++ '&' :: buster ++ '&' :: after) =
          Url.stripCacheBusters (url ++ '&' :: after) ∧
        ∀ config,
          SameOutcome config (url ++ '&' :: buster ++ '&' :: after) (url ++ '&' :: after) := by
  refine ⟨fun t => Url.stripCacheBusters_eq_iff, fun buster h => ?_⟩
  have hend := Url.stripCacheBusters_append_buster h url
  refine ⟨hend, fun config => sameOutcome_of_strip hend config, fun after => ?_⟩
  have hmiddle := Url.stripCacheBusters_append_buster_append h url after
  exact ⟨hmiddle, fun config => sameOutcome_of_strip hmiddle config⟩

/-- The address has a parameter that loses its number, and the text before it ends like the key of a
cache-buster; the digit of the cache-buster that is put in is an Arabic one. -/
theorem cleansTo_and_sameOutcome_arabic :
    Url.CleansTo "/s?a=1&random=1x&random".toList "/s?a=1x&random".toList ∧
    SameOutcome Config.default ("/s?a=1&random=1x&random".toList ++ '&' :: "random=.٣".toList)
      "/s?a=1&random=1x&random".toList ∧
    SameOutcome Config.default
      ("/s?a=1&random=1x&random".toList ++ '&' :: "random=.٣".toList ++ '&' :: "random=7".toList)
      ("/s?a=1&random=1x&random".toList ++ '&' :: "random=7".toList) := by
  obtain ⟨hcleans, hbuster⟩ := cleansTo_and_sameOutcome "/s?a=1&random=1x&random".toList
  obtain ⟨-, hend, hmiddle⟩ := hbuster "random=.٣".toList (by decide)
  refine ⟨(hcleans _).mp ?_, hend _, (hmiddle _).2 _⟩
  cbv

end BlockExplorer.Command
