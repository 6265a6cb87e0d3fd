/-! # The product

The name also names the directory of the settings file.
-/
namespace GameLink.Product

def name : String := "arena"

def version : String := "0.1.0"

/-- A present moment, in seconds since 1970: later than 2023 and earlier than 2099. -/
def presentSeconds : Int := 1800000000

end GameLink.Product
