import Mathlib

/-! # Configuration

The settings of `config/config.rs` that the modelled functions read, with the
defaults of `config/defaults.rs`. The zones are the keys of the `[dns.zone]`
table; nothing reads their values.
-/

namespace Constellation

structure ConfigDNSHealth where
  checkEnable : Bool := false

/-- `ConfigDNS`; the name servers and the SOA names are required, and read as text. -/
structure ConfigDNS where
  nameservers : List String
  soaMaster : String
  soaResponsible : String
  soaRefresh : Int32 := 10000
  soaRetry : Int32 := 2400
  soaExpire : Int32 := 604800
  soaTtl : UInt32 := 3600
  recordTtl : UInt32 := 3600
  zone : List String := []
  health : ConfigDNSHealth := {}

structure ConfigRedis where
  delinquencySeconds : ℕ := 10
  cacheRefreshSeconds : ℕ := 60
  cacheExpireSeconds : ℕ := 600

structure Config where
  dns : ConfigDNS
  redis : ConfigRedis := {}

/-- `ConfigDNS::zone_exists`: the name is a key of the zone table, as written. -/
def ConfigDNS.zoneExists (dns : ConfigDNS) (name : String) : Bool := dns.zone.contains name

end Constellation
