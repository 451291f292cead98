import Cixtech.Common.AppError
import Mathlib.Data.List.Sort

/-! The token configuration of each chain and the registry of assets that it adds up to, in
which one symbol has one number of decimals on every chain.
-/

namespace Cixtech.ChainConfig

open Cixtech.Common

inductive ChainEnv
  | testnet
  | mainnet
  deriving DecidableEq, Repr

def ChainEnv.toText : ChainEnv → String
  | .testnet => "testnet"
  | .mainnet => "mainnet"

structure TokenConfig where
  symbol : String
  chain : String
  decimals : Nat
  contractAddressEnvVar : String
  native : Bool
  deriving DecidableEq, Repr

structure AssetInfo where
  symbol : String
  decimals : Nat
  chains : List String
  native : Bool
  deriving DecidableEq, Repr

/-- The tokens of an EVM chain, in the order of the object's keys. -/
def evmTokens (chain nativeSymbol : String) : List TokenConfig :=
  [ { symbol := "USDC", chain, decimals := 6
      contractAddressEnvVar := chain ++ "_USDC_ADDRESS", native := false },
    { symbol := "USDT", chain, decimals := 6
      contractAddressEnvVar := chain ++ "_USDT_ADDRESS", native := false },
    { symbol := nativeSymbol, chain, decimals := 18, contractAddressEnvVar := ""
      native := true } ]

def tronTokens : List TokenConfig :=
  [ { symbol := "USDT", chain := "TRON", decimals := 6
      contractAddressEnvVar := "TRON_USDT_ADDRESS", native := false },
    { symbol := "TRX", chain := "TRON", decimals := 6, contractAddressEnvVar := ""
      native := true } ]

/-- `TOKENS[env]`, which is the same for both environments. -/
def tokens : ChainEnv → List (String × List TokenConfig)
  | _ =>
      [ ("TRON", tronTokens),
        ("POLYGON", evmTokens "POLYGON" "POL"),
        ("BSC", evmTokens "BSC" "BNB"),
        ("ARBITRUM", evmTokens "ARBITRUM" "ETH"),
        ("BASE", evmTokens "BASE" "ETH"),
        ("ETHEREUM", evmTokens "ETHEREUM" "ETH"),
        ("AVALANCHE", evmTokens "AVALANCHE" "AVAX"),
        ("OPTIMISM", evmTokens "OPTIMISM" "ETH") ]

def configNotFound (message : String) : AppError :=
  { code := .configNotFound, message, context := [] }

/-- Add a token to the assets seen so far, refusing a second number of decimals. -/
def collect (chain : String) (seen : List AssetInfo) (token : TokenConfig)
    : Except AppError (List AssetInfo) :=
  match seen.find? fun asset => asset.symbol = token.symbol with
  | none =>
      .ok
        (seen
          ++ [{ symbol := token.symbol, decimals := token.decimals, chains := [chain]
                native := token.native }])
  | some asset =>
      if asset.decimals ≠ token.decimals then
        .error
          (configNotFound
            (s!"{token.symbol} is {asset.decimals}-decimal on "
              ++ String.intercalate "/" asset.chains
              ++ s!" but {token.decimals}-decimal on {chain}. One symbol cannot mean two "
              ++ "amounts — give the tokens distinct symbols, or teach the API to key assets "
              ++ "by (chain, symbol)."))
      else
        .ok
          (seen.map fun other =>
            if other.symbol = token.symbol then { other with chains := other.chains ++ [chain] }
            else other)

def registryFor (env : ChainEnv) : Except AppError (List AssetInfo) := do
  let seen ←
    (tokens env).foldlM (fun seen (chain, listed) => listed.foldlM (collect chain) seen) []
  return (seen.map fun asset =>
      { asset with chains := asset.chains.insertionSort fun left right => left ≤ right })
    |>.insertionSort fun left right => left.symbol ≤ right.symbol

/-- The registry where no environment is named: both must agree. -/
def assetRegistry : Except AppError (List AssetInfo) := do
  let first ← registryFor .testnet
  let other ← registryFor .mainnet
  if other ≠ first then
    throw
      (configNotFound
        (s!"Asset decimals differ between {ChainEnv.testnet.toText} and "
          ++ s!"{ChainEnv.mainnet.toText}. Pass an explicit env to assetRegistry(); a display "
          ++ "layer can no longer be env-agnostic."))
  return first

/-- The registry is there, with the stablecoins and the native coin of every chain. -/
theorem assetRegistry_symbols
    : (assetRegistry.toOption.map fun registry => registry.map AssetInfo.symbol)
      = some ["AVAX", "BNB", "ETH", "POL", "TRX", "USDC", "USDT"] := by
  decide +kernel

end Cixtech.ChainConfig
