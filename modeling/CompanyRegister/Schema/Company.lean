import CompanyRegister.Company.Record
import CompanyRegister.Schema.Entity

/-!
# The entity of companies

How company records are kept: seven mapped columns and the key of the company group.
-/

namespace CompanyRegister

/-- How company records are kept. -/
def Company.entity : Entity where
  name := "Company"
  table := "Company_List"
  schema := some "dbo"
  columns := [
    { property := "companyId", column := "CompanyId", sqlType := "smallint", type := .number,
      isPrimary := true, isGenerated := true },
    { property := "companyName", column := "CompanyName", sqlType := "varchar", type := .string,
      nullable := true, length := some Company.maxNameLength },
    { property := "baseRate", column := "BaseRate", sqlType := "money", type := .number,
      nullable := true, default := some (.literal "0") },
    { property := "defaultCurrencyId", column := "DefaultCurrencyId", sqlType := "smallint",
      type := .number, nullable := true, default := some (.literal "1") },
    { property := "enterUserId", column := "EnterUserId", sqlType := "int", type := .number },
    { property := "enterDate", column := "EnterDate", sqlType := "datetime", type := .date,
      default := some .now },
    { property := "taxRate", column := "TaxRate", sqlType := "float", type := .number,
      nullable := true, precision := some 53 }]
  indexes := [{ name := "PK_Locations", properties := ["companyId"], unique := true }]
  relations := [
    { kind := .manyToOne, property := "companyGroup", target := "CompanyGroups",
      inverse := "companies",
      joinColumn := some { name := "CompanyGroupId", references := "companyGroupId" } },
    { kind := .oneToMany, property := "externalSupplyCompanys", target := "ExternalSupplyCompany",
      inverse := "company" },
    { kind := .oneToMany, property := "quoteSummarys", target := "QuoteSummary",
      inverse := "company" }]

end CompanyRegister
