import Chainfolio.AaveV3
import Chainfolio.CompoundV2
import Chainfolio.Lido
import Chainfolio.MetaMorpho
import Chainfolio.MorphoBlue.Adapter
import Chainfolio.Prices
import Chainfolio.UniswapV3.Adapter

/-! The products that come with the library. -/
namespace Chainfolio

/-- The products in the order in which they are registered. -/
def Catalogue.factories {σ : Type} : List (AdapterFactory σ) :=
  [AaveV3.factory .aToken, AaveV3.factory .variableDebt, CompoundV2.factory .supply,
    CompoundV2.factory .borrow, MorphoBlue.factory .supply, MorphoBlue.factory .borrow,
    MetaMorpho.factory, Lido.factory .rebasing, Lido.factory .wrapped, UniswapV3.factory,
    Prices.factory]

end Chainfolio
